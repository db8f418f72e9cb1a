import Reckoner.Double.Text
import Reckoner.Text.Quoted
/-!
# Structured data

The tree of plain data that the details of a failure and of a log record hold, and its two texts: the plain one,
in which only nested texts are quoted, and the JSON one.
-/

namespace Reckoner

/-- Plain data. The fields of a record keep their order. -/
inductive Data where
  | null
  | truth (b : Bool)
  | integer (i : Int)
  | real (d : Double)
  | text (t : Text)
  | list (items : List Data)
  | record (fields : List (Text × Data))
  deriving Inhabited

namespace Data

/-- A natural number as data. -/
def count (n : Nat) : Data := .integer n

/-- Whether data counts as nothing: null, false, zero, and what is empty. -/
def isNothing : Data → Bool
  | .null => true
  | .truth b => !b
  | .integer i => i == 0
  | .real d => d.toRat? == some 0
  | .text t => t.isEmpty
  | .list items => items.isEmpty
  | .record fields => fields.isEmpty

/-- Texts as data. -/
def texts (ts : List Text) : Data := .list (ts.map .text)

mutual

/-- The text of data that stands inside other data: texts are quoted. -/
def nested : Data → Text
  | .null => "None".toList
  | .truth true => "True".toList
  | .truth false => "False".toList
  | .integer i => Text.signedNumeral i
  | .real d => d.text
  | .text t => Text.quoted t
  | .list items => '[' :: Text.join [',', ' '] (nestedItems items) ++ [']']
  | .record fields => '{' :: Text.join [',', ' '] (nestedFields fields) ++ ['}']

/-- The texts of the items of a list. -/
def nestedItems : List Data → List Text
  | [] => []
  | d :: rest => nested d :: nestedItems rest

/-- The texts of the fields of a record. -/
def nestedFields : List (Text × Data) → List Text
  | [] => []
  | (name, d) :: rest => (Text.quoted name ++ ':' :: ' ' :: nested d) :: nestedFields rest

end

/-- The plain text of data: a text stands for itself. -/
def plain : Data → Text
  | .text t => t
  | d => nested d

mutual

/-- The JSON text of data, in ASCII. -/
def json : Data → Text
  | .null => "null".toList
  | .truth true => "true".toList
  | .truth false => "false".toList
  | .integer i => Text.signedNumeral i
  | .real (.nan _) => "NaN".toList
  | .real (.infinite negative) => (if negative then "-Infinity" else "Infinity").toList
  | .real d => d.text
  | .text t => Text.asciiQuoted t
  | .list items => '[' :: Text.join [',', ' '] (jsonItems items) ++ [']']
  | .record fields => '{' :: Text.join [',', ' '] (jsonFields fields) ++ ['}']

/-- The JSON texts of the items of a list. -/
def jsonItems : List Data → List Text
  | [] => []
  | d :: rest => json d :: jsonItems rest

/-- The JSON texts of the fields of a record. -/
def jsonFields : List (Text × Data) → List Text
  | [] => []
  | (name, d) :: rest => (Text.asciiQuoted name ++ ':' :: ' ' :: json d) :: jsonFields rest

end

/-- The fields with one of them set: a field that exists keeps its place. -/
def setField (fields : List (Text × Data)) (name : Text) (d : Data) : List (Text × Data) :=
  if fields.any (·.1 == name) then fields.map fun f => if f.1 = name then (name, d) else f
  else fields ++ [(name, d)]

/-- The fields with others set over them, one after the other. -/
def mergeFields (fields others : List (Text × Data)) : List (Text × Data) :=
  others.foldl (fun fs f => setField fs f.1 f.2) fields

end Data

end Reckoner
