import BekenSoc.CRuntime

/-!
The base64 functions (`base_64.c`), on lists of bytes.
-/

namespace BekenSoc.Base64

def base64Table : List UInt8 :=
  ['A', 'B', 'C', 'D', 'E', 'F', 'G', 'H', 'I', 'J', 'K', 'L', 'M', 'N', 'O', 'P', 'Q', 'R', 'S',
    'T', 'U', 'V', 'W', 'X', 'Y', 'Z', 'a', 'b', 'c', 'd', 'e', 'f', 'g', 'h', 'i', 'j', 'k', 'l',
    'm', 'n', 'o', 'p', 'q', 'r', 's', 't', 'u', 'v', 'w', 'x', 'y', 'z', '0', '1', '2', '3', '4',
    '5', '6', '7', '8', '9', '+', '/'].map Char.toUInt8

def equalsSign : UInt8 := 61

def lineFeed : UInt8 := 10

def tableAt (i : UInt8) : UInt8 := base64Table.getD i.toNat 0

def dtable (c : UInt8) : UInt8 :=
  if c = equalsSign then 0
  else if c ∈ base64Table then UInt8.ofNat (base64Table.idxOf c)
  else 0x80

def base64CalcEncodeLength (srcLen : Nat) : Nat :=
  let encLen := (srcLen * 4 % 2 ^ 32 / 3 + 4) % 2 ^ 32
  (encLen + encLen / 72 + 1) % 2 ^ 32

def base64Encode : List UInt8 → Nat → List UInt8
  | a :: b :: c :: rest, lineLen =>
    tableAt (a >>> 2) :: tableAt (((a &&& 0x03) <<< 4) ||| (b >>> 4)) ::
      tableAt (((b &&& 0x0f) <<< 2) ||| (c >>> 6)) :: tableAt (c &&& 0x3f) ::
        (if 72 ≤ lineLen + 4 then lineFeed :: base64Encode rest 0
          else base64Encode rest (lineLen + 4))
  | [a, b], _ =>
    [tableAt (a >>> 2), tableAt (((a &&& 0x03) <<< 4) ||| (b >>> 4)),
      tableAt ((b &&& 0x0f) <<< 2), equalsSign, lineFeed]
  | [a], _ => [tableAt (a >>> 2), tableAt ((a &&& 0x03) <<< 4), equalsSign, equalsSign, lineFeed]
  | [], lineLen => if lineLen ≠ 0 then [lineFeed] else []

def coded (src : List UInt8) : List UInt8 := src.filter fun c => decide (dtable c ≠ 0x80)

def calcDecodeLength (src : List UInt8) : Nat :=
  if (coded src).length % 4 ≠ 0 then 0 else (coded src).length

def decodeBlocks : List UInt8 → List UInt8
  | a :: b :: c :: d :: rest =>
    ((dtable a <<< 2) ||| (dtable b >>> 4)) :: ((dtable b <<< 4) ||| (dtable c >>> 2)) ::
      ((dtable c <<< 6) ||| dtable d) :: decodeBlocks rest
  | _ => []

def fillBytes (text : List UInt8) : Nat :=
  if text.length < 4 then 0
  else if text.getD (text.length - 2) 0 = equalsSign then 2
  else if text.getD (text.length - 1) 0 = equalsSign then 1
  else 0

def decode (src : List UInt8) : Option (List UInt8) :=
  if (coded src).length % 4 ≠ 0 then none
  else
    let out := decodeBlocks (coded src)
    some (out.take (out.length - fillBytes (coded src)))

end BekenSoc.Base64
