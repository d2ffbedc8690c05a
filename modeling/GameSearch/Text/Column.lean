/-!
# Columns of a table

Texts are filled with blanks up to a column width, which counts characters.
-/

namespace GameSearch.Text

/-- As many blanks as a text of the given length lacks. -/
def filler (width length : Nat) : String :=
  String.ofList (List.replicate (width - length) ' ')

/-- Fills a text with blanks on the right. -/
def alignLeft (width : Nat) (text : String) : String :=
  text ++ filler width text.length

/-- Fills a text with blanks on the left. -/
def alignRight (width : Nat) (text : String) : String :=
  filler width text.length ++ text

def repeated (count : Nat) (char : Char) : String :=
  String.ofList (List.replicate count char)

end GameSearch.Text
