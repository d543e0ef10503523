/-!
# Shapes of shown values

Every value of the library is shown through one description of it, a `Shape`: a record with named
fields, a tuple, a list, or a plain text. Two layouts are read off the same shape. `Shape.flat`
keeps a value on one line, and `Shape.pretty` gives each part a line of its own, four spaces deeper
than what holds it. A record may be *open*: it has parts that are not shown, and says so by two
dots after its last field.
-/

namespace IdMint.Text

/-- What a shown value looks like, whatever the layout. -/
inductive Shape where
  | plain (text : String)
  | record (name : String) (fields : List (String × Shape)) (isOpen : Bool)
  | tuple (name : String) (parts : List Shape)
  | list (parts : List Shape)

namespace Shape

/-- A value that is shown as the text of it. -/
def text {α : Type} [ToString α] (a : α) : Shape := .plain (toString a)

/-! ## One line -/

mutual

def flat : Shape → String
  | .plain t => t
  | .record name fields isOpen =>
    let rest := if isOpen then [".."] else []
    name ++ " \x7b " ++ ", ".intercalate (flatFields fields ++ rest) ++ " \x7d"
  | .tuple name parts => name ++ "(" ++ ", ".intercalate (flatParts parts) ++ ")"
  | .list parts => "[" ++ ", ".intercalate (flatParts parts) ++ "]"

/-- The fields of a record, each with its name. -/
def flatFields : List (String × Shape) → List String
  | [] => []
  | (label, value) :: rest => (label ++ ": " ++ value.flat) :: flatFields rest

def flatParts : List Shape → List String
  | [] => []
  | value :: rest => value.flat :: flatParts rest

end

/-! ## One line for each part -/

/-- The lines of one part: a label opens the first, a comma ends the last, and all of them stand
one level deeper. -/
def nest (label : String) : List String → List String
  | [] => []
  | [only] => ["    " ++ label ++ only ++ ","]
  | first :: rest =>
    ("    " ++ label ++ first) :: rest.dropLast.map ("    " ++ ·)
      ++ [("    " ++ rest.getLast?.getD "" ++ ",")]

mutual

def lines : Shape → List String
  | .plain t => [t]
  | .record name fields isOpen =>
    (name ++ " \x7b") :: fieldLines fields ++ (if isOpen then ["    .."] else []) ++ ["\x7d"]
  | .tuple name parts => (name ++ "(") :: partLines parts ++ [")"]
  | .list parts => "[" :: partLines parts ++ ["]"]

def fieldLines : List (String × Shape) → List String
  | [] => []
  | (label, value) :: rest => nest (label ++ ": ") value.lines ++ fieldLines rest

def partLines : List Shape → List String
  | [] => []
  | value :: rest => nest "" value.lines ++ partLines rest

end

/-- The value with each part on a line of its own. -/
def pretty (s : Shape) : String := "\n".intercalate s.lines

end Shape
end IdMint.Text
