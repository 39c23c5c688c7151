namespace Tabular.Text.Delimited

def double (q : Char) : List Char → List Char
  | [] => []
  | c :: s => if c = q then q :: q :: double q s else c :: double q s

def encode (q : Char) (s : List Char) : List Char := q :: (double q s ++ [q])

def scanBody (q : Char) : List Char → Option (List Char × List Char)
  | [] => none
  | [c] => if c = q then some ([], []) else none
  | c :: d :: s =>
    if c = q then
      if d = q then (scanBody q s).map fun p => (q :: p.1, p.2) else some ([], d :: s)
    else (scanBody q (d :: s)).map fun p => (c :: p.1, p.2)

def scan (q : Char) : List Char → Option (List Char × List Char)
  | [] => none
  | c :: s => if c = q then scanBody q s else none

@[simp] theorem double_nil (q : Char) : double q [] = [] := rfl

end Tabular.Text.Delimited

namespace Tabular

def quoteIdentifier (name : String) : String :=
  String.ofList (Text.Delimited.encode '"' name.toList)

def quoteLiteral (text : String) : String :=
  String.ofList (Text.Delimited.encode '\x27' text.toList)

end Tabular
