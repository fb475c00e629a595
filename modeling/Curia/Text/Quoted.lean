import Curia.Text.Graphic
import Curia.Text.Hex

/-!
Texts between double quotes as messages show them: quotes, backslashes and what has no visible form
are escaped.
-/

namespace Curia.Quoted

def escape : Char → List Char
  | '\x00' => ['\\', '0']
  | '\t' => ['\\', 't']
  | '\r' => ['\\', 'r']
  | '\n' => ['\\', 'n']
  | '"' => ['\\', '"']
  | '\\' => ['\\', '\\']
  | c => if isGraphic c then [c] else '\\' :: 'u' :: '\x7b' :: Hex.ofNat c.toNat ++ ['\x7d']

def quote (s : String) : String :=
  String.ofList ('"' :: s.toList.flatMap escape ++ ['"'])

end Curia.Quoted
