import ChatSpace.Text.Fields

namespace ChatSpace.Lines

def dropReturn (line : List Char) : List Char :=
  if line.getLast? = some '\x0d' then line.dropLast else line

def ofChars (chars : List Char) : List (List Char) :=
  let parts := Fields.split '\n' chars
  let last := parts.getLastD []
  parts.dropLast.map dropReturn ++ if last.isEmpty then [] else [last]

def ofText (text : String) : List String :=
  (ofChars text.toList).map String.ofList

def first (text : String) : String :=
  (ofText text).headD ""

end ChatSpace.Lines
