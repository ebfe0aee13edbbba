import ClassAtlas.Text.Utf8

/-!
Names of archive entries. A flag tells whether a name is UTF-8; else it is in the old code page of
the format, which agrees with ASCII below 128.
-/

namespace ClassAtlas.Zip

/-- The characters of the bytes from 128 up. -/
def upperPage : List Char :=
  ("ÇüéâäàåçêëèïîìÄÅÉæÆôöòûùÿÖÜ¢£¥₧ƒáíóúñÑªº¿⌐¬½¼¡«»░▒▓│┤╡╢╖╕╣║╗╝╜╛┐"
    ++ "└┴┬├─┼╞╟╚╔╩╦╠═╬╧╨╤╥╙╘╒╓╫╪┘┌█▄▌▐▀αßΓπΣσµτΦΘΩδ∞φε∩≡±≥≤⌠⌡÷≈°∙·√ⁿ²■ ").toList

def pageChar (byte : UInt8) : Char :=
  if byte < 128 then Char.ofNat byte.toNat else upperPage.getD (byte.toNat - 128) ' '

def entryName (isUtf8 : Bool) (raw : List UInt8) : String :=
  if isUtf8 then Text.decodeLossy raw else String.ofList (raw.map pageChar)

end ClassAtlas.Zip
