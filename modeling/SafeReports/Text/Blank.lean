/-!
# Blank characters

White space, what trimming takes from the ends of a text, and the collapse of
each inner run to one space.
-/

namespace SafeReports.Text

/-- White space of every script, the four information separators included. -/
def isBlank (c : Char) : Bool :=
  let n := c.toNat
  (9 ≤ n && n ≤ 13) || (0x1C ≤ n && n ≤ 0x20) || n == 0x85 || n == 0xA0 || n == 0x1680 ||
    (0x2000 ≤ n && n ≤ 0x200A) || n == 0x2028 || n == 0x2029 || n == 0x202F || n == 0x205F ||
    n == 0x3000

def trimEnd (drop : Char → Bool) (s : List Char) : List Char :=
  (s.reverse.dropWhile drop).reverse

def trim (drop : Char → Bool) (s : List Char) : List Char :=
  trimEnd drop (s.dropWhile drop)

/-- Without white space at either end. -/
def strip (s : List Char) : List Char := trim isBlank s

def isBlankText (s : List Char) : Bool := s.all isBlank

/-- Each run of white space becomes one space; `inRun` tells whether the run
has been written already. -/
def collapseFrom (inRun : Bool) : List Char → List Char
  | [] => []
  | c :: r =>
    if isBlank c then
      if inRun then collapseFrom true r else ' ' :: collapseFrom true r
    else c :: collapseFrom false r

def collapse (s : List Char) : List Char := collapseFrom false s

end SafeReports.Text
