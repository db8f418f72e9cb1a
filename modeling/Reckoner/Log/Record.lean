import Reckoner.Data
/-!
# Log records

A record of what happened, with data, and its two line formats: text for people, JSON for programs.
-/

namespace Reckoner.Log

/-- A record. -/
structure Record where
  level : Text
  logger : Text
  message : Text
  /-- The activity that the record comes from. -/
  origin : Text
  data : List (Text × Data)

namespace Record

/-- The line for people: the data stands in brackets at the end, if there is any. -/
def text (time : Text) (r : Record) : Text :=
  let line := Text.join " - ".toList [time, r.logger, r.level, r.message]
  let pairs := r.data.map fun (name, d) => name ++ '=' :: d.plain
  if pairs.isEmpty then line else line ++ [' ', '['] ++ Text.join [' '] pairs ++ [']']

/-- The fields of the line for programs: data of the same name takes the place of a field. -/
def fields (time : Text) (r : Record) : List (Text × Data) :=
  Data.mergeFields
    [("timestamp".toList, .text time), ("level".toList, .text r.level), ("logger".toList, .text r.logger),
     ("message".toList, .text r.message), ("function".toList, .text r.origin)] r.data

/-- The line for programs. -/
def json (time : Text) (r : Record) : Text := (Data.record (r.fields time)).json

end Record

/-- The data of a record in a context: the data of the context, and over it the record's own. -/
def inContext (context data : List (Text × Data)) : List (Text × Data) := Data.mergeFields context data

end Reckoner.Log
