import ChatSpace.Text.Bytes

namespace ChatSpace.Blank

def isAscii (c : Char) : Bool :=
  c = ' ' || c = '\t' || c = '\n' || c = '\x0c' || c = '\x0d'

def isBlank (c : Char) : Bool :=
  (0x9 ≤ c.val && c.val ≤ 0xD) || c.val = 0x20 || c.val = 0x85 || c.val = 0xA0 || c.val = 0x1680 ||
    (0x2000 ≤ c.val && c.val ≤ 0x200A) || c.val = 0x2028 || c.val = 0x2029 || c.val = 0x202F ||
    c.val = 0x205F || c.val = 0x3000

def trimEnd (text : String) : String :=
  String.ofList (text.toList.reverse.dropWhile isBlank).reverse

def trim (text : String) : String :=
  String.ofList ((text.toList.dropWhile isBlank).reverse.dropWhile isBlank).reverse

def asciiWords (text : String) : List String :=
  (text.toList.splitBy fun a b => isAscii a = isAscii b).filterMap fun run =>
    match run with
    | [] => none
    | c :: _ => if isAscii c then none else some (String.ofList run)

end ChatSpace.Blank
