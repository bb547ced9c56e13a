import Mathlib

/-!
# Go's `strings` package

The functions of `strings` the modelled code calls, on the characters of a string. A Go string
is a byte sequence; on valid UTF-8, which every string here is, a byte prefix is a character
prefix, so the functions keep their meaning. They are written on `String.toList` so that the
kernel can evaluate them.
-/

namespace Go

namespace unicode

/-- `unicode.IsSpace`: in Latin-1 the eight spaces Go lists, above it the rest of Unicode's
White_Space property. -/
def IsSpace (c : Char) : Bool :=
  if c.toNat ≤ 0xFF then c.toNat ∈ [0x09, 0x0A, 0x0B, 0x0C, 0x0D, 0x20, 0x85, 0xA0]
  else c.toNat = 0x1680 || (0x2000 ≤ c.toNat && c.toNat ≤ 0x200A) || c.toNat = 0x2028 ||
    c.toNat = 0x2029 || c.toNat = 0x202F || c.toNat = 0x205F || c.toNat = 0x3000

end unicode

namespace strings

def HasPrefix (s pre : String) : Bool := pre.toList.isPrefixOf s.toList

def HasSuffix (s suf : String) : Bool := suf.toList.isSuffixOf s.toList

def TrimPrefix (s pre : String) : String :=
  if HasPrefix s pre then String.ofList (s.toList.drop pre.length) else s

def TrimSuffix (s suf : String) : String :=
  if HasSuffix s suf then String.ofList (s.toList.take (s.length - suf.length)) else s

def TrimSpace (s : String) : String :=
  String.ofList ((s.toList.dropWhile unicode.IsSpace).reverse.dropWhile unicode.IsSpace).reverse

/-- `strings.Split(s, sep)` for a one-character separator: every part between separators, so
one empty part for the empty string. -/
def Split (s : String) (sep : Char) : List String := (s.toList.splitOn sep).map String.ofList

example : Split "" ',' = [""] ∧ TrimSpace " 80\t" = "80" := by decide

/-- `strings.SplitN(s, sep, n)` for a one-character separator and `n > 0`, the only use here: at
most `n` parts, the last of which holds the rest of `s` unsplit. -/
def SplitN (s : String) (sep : Char) (n : Nat) : List String :=
  let parts := s.toList.splitOn sep
  let kept := if parts.length ≤ n then parts
    else parts.take (n - 1) ++ [[sep].intercalate (parts.drop (n - 1))]
  kept.map String.ofList

example : SplitN "nvidia/gpu/1080ti/x" '/' 3 = ["nvidia", "gpu", "1080ti/x"] := by decide

end strings

namespace strconv

/-- `strconv.Quote` on text with no control characters: the text in double quotes, with `"`
and the backslash escaped. -/
def Quote (s : String) : String :=
  "\"" ++ String.join (s.toList.map fun c =>
    if c = '"' then "\\\"" else if c = '\\' then "\\\\" else c.toString) ++ "\""

/-- `strconv.ParseUint(s, 10, 64)`, with the text of its error. -/
def ParseUint (s : String) : Except String Nat :=
  if s.toList ≠ [] ∧ s.toList.all Char.isDigit then
    let n := s.toList.foldl (fun n d => 10 * n + (d.toNat - '0'.toNat)) 0
    if n < 2 ^ 64 then .ok n
    else .error ("strconv.ParseUint: parsing " ++ Quote s ++ ": value out of range")
  else .error ("strconv.ParseUint: parsing " ++ Quote s ++ ": invalid syntax")

end strconv

namespace multierror

def ListFormatFunc : List String → String
  | [e] => "1 error occurred:\n\t* " ++ e ++ "\n\n"
  | es => toString es.length ++ " errors occurred:\n\t" ++
      "\n\t".intercalate (es.map ("* " ++ ·)) ++ "\n\n"

end multierror

end Go
