/-!
Records as text. A record is a name and a list of labelled values; it is written on one line, or
with one label per line under its name.
-/
namespace SyntaxDialects.Text

structure Record where
  name : String
  fields : List (String × String)

namespace Record

def oneLine (record : Record) : String :=
  record.name ++ " \x7b " ++
    ", ".intercalate (record.fields.map fun field => field.1 ++ ": " ++ field.2) ++ " \x7d"

def onLines (depth : Nat) (record : Record) : String :=
  let margin := String.ofList (List.replicate (4 * depth) ' ')
  record.name ++ " \x7b\n" ++
    String.join (record.fields.map fun field =>
      margin ++ "    " ++ field.1 ++ ": " ++ field.2 ++ ",\n") ++
    margin ++ "\x7d"

end Record

end SyntaxDialects.Text
