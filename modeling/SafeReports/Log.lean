/-!
# Log records

What the library reports on the way: a level, the name of the logger, and the
text.
-/

namespace SafeReports

structure LogRecord where
  level : Int
  logger : String
  message : String
  deriving DecidableEq, Repr

namespace LogRecord

def infoLevel : Int := 20

def warningLevel : Int := 30

def info (logger message : String) : LogRecord := ⟨infoLevel, logger, message⟩

def warning (logger message : String) : LogRecord := ⟨warningLevel, logger, message⟩

/-- The name of a level. -/
def levelName (level : Int) : String :=
  if level = 10 then "DEBUG"
  else if level = infoLevel then "INFO"
  else if level = warningLevel then "WARNING"
  else if level = 40 then "ERROR"
  else if level = 50 then "CRITICAL"
  else "Level " ++ toString level

end LogRecord

end SafeReports
