/-!
Lines of a text. A line ends with a line feed, or with a carriage return and a line feed; the last
one may do without. No end belongs to its line.
-/

namespace HubCard.Text

/-- A line without the carriage return of its end. -/
def dropReturn (line : List Char) : List Char :=
  match line.reverse with
  | '\r' :: rest => rest.reverse
  | _ => line

/-- Reads lines on, where `read` holds the current one so far, the latest character first. -/
def linesFrom (read : List Char) : List Char → List (List Char)
  | [] => if read.isEmpty then [] else [read.reverse]
  | '\n' :: rest => dropReturn read.reverse :: linesFrom [] rest
  | c :: rest => linesFrom (c :: read) rest

/-- The lines of a text, in order. -/
def lines (text : String) : List String :=
  (linesFrom [] text.toList).map String.ofList

/-- A line without its end, if it has one. -/
def chomp (line : String) : String :=
  match line.toList.reverse with
  | '\n' :: rest => String.ofList (dropReturn rest.reverse)
  | _ => line

end HubCard.Text
