import SelectBuilder.Arg

/-! An argument with its constructors spelled out, for reading. Characters in strings are shown as they are. Doubles
keep a point, and have an exponent from `1e16` on and below `1e-4`. -/
namespace SelectBuilder

namespace Decimal

def Numeral.scientific (d : Numeral) : Text :=
  let digits := Text.ofNat d.digits
  let fraction : Text := if digits.length = 1 then [] else '.' :: digits.drop 1
  digits.take 1 ++ fraction ++ ['e'] ++ Text.ofInt (d.point - 1)

def Binary64.detailed (x : Binary64) : Text :=
  x.written "0.0" fun d => if -4 < d.point && d.point ≤ 16 then d.positional ".0" else d.scientific

end Decimal

def Value.outline : Value → Text
  | .null => "Null"
  | .bool b => "Bool(" ++ (if b then "true" else "false") ++ ")"
  | .int n => "I64(" ++ Text.ofInt n.toInt ++ ")"
  | .nat n => "U64(" ++ Text.ofNat n.toNat ++ ")"
  | .float x => "F64(" ++ x.detailed ++ ")"
  | .text t => "String(\"" ++ t ++ "\")"
  | .bytes data => "Bytes([" ++ Text.joined ", " (data.map fun b => Text.ofNat b.toNat) ++ "])"
  | .moment t => "DateTime(" ++ t.display ++ ")"

namespace Arg

mutual
def outline : Arg → Text
  | .value v => "Value(" ++ v.outline ++ ")"
  | .lazy _ => "Valuer(..)"
  | .raw sql => "Raw(Raw \x7b expr: \"" ++ sql ++ "\" \x7d)"
  | .list items => "List([" ++ Text.joined ", " (outlines items) ++ "])"

def outlines : List Arg → List Text
  | [] => []
  | arg :: rest => outline arg :: outlines rest
end

end Arg
end SelectBuilder
