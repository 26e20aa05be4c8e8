import SafeReports.Sql.Comment
import SafeReports.Text.Blank
import SafeReports.Text.Upper

/-!
# Normal form of a query

Comments go, white space shrinks to single spaces, and letters become capital.
The rules of the guard are matched against this text.
-/

namespace SafeReports.Sql

def normalize (query : List Char) : List Char :=
  Text.upper (Text.strip (Text.collapse (dropBlockComments (dropLineComments query))))

end SafeReports.Sql
