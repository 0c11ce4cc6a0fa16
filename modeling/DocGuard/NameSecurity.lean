import DocGuard.Text

/-!
What the worker reads off the name of a file or of an archive member: its last
segments, dangerous extensions, and bidirectional controls.
-/
namespace DocGuard.NameSecurity

/-- The functions of `unicodedata` and `str` that depend on the Unicode tables. -/
structure UnicodeTables where
  /-- `unicodedata.normalize("NFC", text)` -/
  normalizeNfc : Text → Text
  casefold : Text → Text
  /-- `unicodedata.category(character).startswith("C")` -/
  isOther : Char → Bool

variable (tables : UnicodeTables)

def DANGEROUS_EXTENSIONS : List Text :=
  [lit "bat",lit "cmd",lit "com",lit "cpl",lit "dll",lit "exe",lit "hta",lit "jar",lit "js",lit "jse",lit "lnk",
   lit "msi",lit "pif",lit "ps1",lit "scr",lit "vbe",lit "vbs",lit "wsf",lit "wsh"]

def BUSINESS_EXTENSIONS : List Text :=
  [lit "csv",lit "doc",lit "docm",lit "docx",lit "odp",lit "ods",lit "odt",lit "pdf",lit "ppt",lit "pptm",
   lit "pptx",lit "rtf",lit "txt",lit "xls",lit "xlsm",lit "xlsx"]

def BIDI_CONTROLS : List Char :=
  ['\u200e','\u200f','\u202a','\u202b','\u202c','\u202d','\u202e','\u2066','\u2067','\u2068','\u2069']

/-- `value.replace("\\", "/")` -/
def portable (value : Text) : Text := value.map fun c => if c = '\\' then '/' else c

/-- `PurePath(value).name`: the last part that is neither empty nor a single dot -/
def pureName (value : Text) : Text :=
  ((value.splitOn '/').filter fun piece => piece ≠ [] ∧ piece ≠ ['.']).getLast?.getD []

def basenameSegments (value : Text) : List Text :=
  (tables.casefold (pureName (portable value))).splitOn '.'

def finalExtension (value : Text) : Option Text :=
  let segments := basenameSegments tables value
  if 1 < segments.length then segments.getLast? else none

def hasDangerousDoubleExtension (value : Text) : Bool :=
  let segments := basenameSegments tables value
  3 ≤ segments.length && segments.getLast?.any DANGEROUS_EXTENSIONS.contains &&
    (segments.drop 1).dropLast.any BUSINESS_EXTENSIONS.contains

/-- `f"U+{ord(character):04X}"` -/
def codepoint (c : Char) : Text :=
  let digits := (Nat.toDigits 16 c.toNat).map Char.toUpper
  lit "U+" ++ List.replicate (4 - digits.length) '0' ++ digits

def bidiCodepoints (value : Text) (maximum : Nat) : List Text :=
  ((value.filter BIDI_CONTROLS.contains).map codepoint).take maximum

end DocGuard.NameSecurity
