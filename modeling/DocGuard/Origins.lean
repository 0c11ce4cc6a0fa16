import Mathlib
import DocGuard.Text

/-!
How the standard library splits a URL into its components, and the settings whose
application origin the service compares hosts and origins with.
-/
namespace DocGuard.Origins

/-- The exceptions that the comparisons of hosts and origins raise. -/
inductive Raised where
  | valueError
  | typeError
  | assertionError
  deriving DecidableEq, Repr

/-! ### Letter case -/

/-- The functions of `str`, `unicodedata` and `ipaddress` that depend on the Unicode tables or on the grammar of addresses. -/
structure Tables where
  /-- `str.lower` -/
  lower : Text → Text
  /-- The full case folding of a character. -/
  casefold : Char → Text
  /-- The character is not ASCII, and its NFKC form has one of the characters `/?#@:`. -/
  expands : Char → Bool
  /-- `ipaddress.ip_address` reads an IPv6 address. -/
  isIpv6 : Text → Bool
  casefold_ascii : ∀ c, c.toNat < 128 → casefold c = [c.toLower]
  casefold_letter : ∀ c, 128 ≤ c.toNat → ∀ d ∈ casefold c, d.toNat < 128 → d.isAlpha = true
  casefold_ne_nil : ∀ c, casefold c ≠ []
  casefold_casefold : ∀ c, (casefold c).flatMap casefold = casefold c
  casefold_lower : ∀ text, (lower text).flatMap casefold = text.flatMap casefold
  expands_other : ∀ c, expands c = true → 128 ≤ c.toNat
  expands_casefold : ∀ c, (casefold c).any expands = expands c

variable (tables : Tables)

/-- `text.casefold()` -/
def fold (text : Text) : Text := text.flatMap tables.casefold

/-- `text.isascii()` -/
def isAscii (text : Text) : Bool := text.all fun c => c.toNat < 128

/-- An ASCII character without case -/
def Caseless (c : Char) : Prop := c.toNat < 128 ∧ c.isAlpha = false

instance (c : Char) : Decidable (Caseless c) := inferInstanceAs (Decidable (_ ∧ _))

theorem caseless_of_isDigit {c : Char} (digit : c.isDigit = true) : Caseless c := by
  have val : c.val.toNat = c.toNat := rfl
  simp only [Char.isDigit, Bool.and_eq_true, decide_eq_true_eq, ge_iff_le, UInt32.le_iff_toNat_le, val] at digit
  have small : c.toNat ≤ 57 := digit.2
  refine ⟨by omega,?_⟩
  simp [Char.isAlpha, Char.isUpper, Char.isLower, UInt32.le_iff_toNat_le, val]
  omega

@[simp] theorem fold_nil : fold tables [] = [] := rfl

@[simp] theorem fold_cons (c : Char) (text : Text) : fold tables (c :: text) = tables.casefold c ++ fold tables text := rfl

@[simp] theorem fold_append (a b : Text) : fold tables (a ++ b) = fold tables a ++ fold tables b := List.flatMap_append

theorem fold_fold (text : Text) : fold tables (fold tables text) = fold tables text := by
  rw [fold, fold, List.flatMap_assoc]
  exact congrArg (fun f => text.flatMap f) (funext tables.casefold_casefold)

theorem fold_eq_nil {text : Text} (none : fold tables text = []) : text = [] := by
  cases text with
  | nil => rfl
  | cons c rest => exact absurd (List.append_eq_nil_iff.mp none).1 (tables.casefold_ne_nil c)

theorem casefold_caseless {c : Char} (caseless : Caseless c) : tables.casefold c = [c] := by
  have lower : ¬ c.isUpper := by
    intro upper
    have letter := caseless.2
    simp [Char.isAlpha, upper] at letter
  rw [tables.casefold_ascii c caseless.1, Char.toLower_eq_of_not_isUpper lower]

/-- A character without case is the folding of itself only. -/
theorem eq_of_mem_casefold {c d : Char} (caseless : Caseless d) (member : d ∈ tables.casefold c) : c = d := by
  by_cases small : c.toNat < 128
  · rw [tables.casefold_ascii c small, List.mem_singleton] at member
    have letter : c.isAlpha = false := by rw [← Char.isAlpha_toLower_eq_isAlpha, ← member, caseless.2]
    have same := tables.casefold_ascii c small
    rw [casefold_caseless tables ⟨small,letter⟩] at same
    exact (List.cons.inj same).1.trans member.symm
  · have letter := tables.casefold_letter c (by omega) d member caseless.1
    rw [caseless.2] at letter
    cases letter

/-- Where the folding of a text has a character without case, the text has it too. -/
theorem fold_split {text a b : Text} {d : Char} (caseless : Caseless d) (folded : fold tables text = a ++ d :: b) :
    ∃ x y, text = x ++ d :: y ∧ fold tables x = a ∧ fold tables y = b := by
  induction text generalizing a with
  | nil => simp at folded
  | cons c rest ih =>
    rcases List.append_eq_append_iff.mp folded with ⟨more,rfl,later⟩ | ⟨more,first,later⟩
    · obtain ⟨x,y,rfl,rfl,rfl⟩ := ih later
      exact ⟨c :: x,y,rfl,rfl,rfl⟩
    · cases more with
      | nil =>
        obtain ⟨x,y,rfl,empty,rfl⟩ := ih (a := []) later.symm
        obtain rfl := fold_eq_nil tables empty
        exact ⟨[c],y,rfl,by simpa using first,rfl⟩
      | cons e more =>
        obtain ⟨rfl,rest'⟩ := List.cons.inj later
        obtain rfl := eq_of_mem_casefold tables caseless (by rw [first]; simp)
        rw [casefold_caseless tables caseless] at first
        have short := congrArg List.length first
        have none : a = [] ∧ more = [] := by
          constructor <;> refine List.length_eq_zero_iff.mp ?_ <;> simp at short <;> omega
        obtain ⟨rfl,rfl⟩ := none
        exact ⟨[],rest,rfl,rfl,rest'.symm⟩

/-- Only a text without case has a folding without case, and it is its own. -/
theorem fold_eq_caseless {text plain : Text} (caseless : ∀ c ∈ plain, Caseless c) (folded : fold tables text = plain) :
    text = plain := by
  induction plain generalizing text with
  | nil => exact fold_eq_nil tables folded
  | cons d rest ih =>
    obtain ⟨x,y,rfl,empty,later⟩ := fold_split tables (a := []) (caseless d List.mem_cons_self) folded
    rw [fold_eq_nil tables empty, List.nil_append, ih (fun c member => caseless c (List.mem_cons_of_mem d member)) later]

theorem fold_caseless {text : Text} (caseless : ∀ c ∈ text, Caseless c) : fold tables text = text := by
  induction text with
  | nil => rfl
  | cons c rest ih =>
    rw [fold_cons, casefold_caseless tables (caseless c List.mem_cons_self),
      ih fun d member => caseless d (List.mem_cons_of_mem c member)]
    rfl

theorem mem_fold {text : Text} {d : Char} (caseless : Caseless d) : d ∈ fold tables text ↔ d ∈ text := by
  constructor
  · intro member
    obtain ⟨c,inside,folded⟩ := List.mem_flatMap.mp member
    exact eq_of_mem_casefold tables caseless folded ▸ inside
  · intro member
    exact List.mem_flatMap.mpr ⟨d,member,by simp [casefold_caseless tables caseless]⟩

theorem expands_fold (text : Text) : (fold tables text).any tables.expands = text.any tables.expands := by
  rw [fold, List.any_flatMap]
  exact congrArg (fun p => text.any p) (funext tables.expands_casefold)

/-- `hmac.compare_digest` of two texts -/
def compareDigest (a b : Text) : Except Raised Bool :=
  if isAscii a && isAscii b then .ok (a == b) else .error .typeError

/-! ### The components of a URL -/

/-- `text.partition(c)` -/
def partition (c : Char) (text : Text) : Text × Bool × Text :=
  (text.takeWhile (· ≠ c),text.contains c,(text.dropWhile (· ≠ c)).drop 1)

/-- `text.rpartition(c)` -/
def rpartition (c : Char) (text : Text) : Text × Bool × Text :=
  (((text.reverse.dropWhile (· ≠ c)).drop 1).reverse,text.contains c,(text.reverse.takeWhile (· ≠ c)).reverse)

theorem partition_append {c : Char} {before : Text} (absent : c ∉ before) (rest : Text) :
    partition c (before ++ c :: rest) = (before,true,rest) := by
  have others : ∀ d ∈ before, decide (d ≠ c) = true := fun d member => by
    simpa using ne_of_mem_of_not_mem member absent
  rw [partition, List.takeWhile_append_of_pos others, List.dropWhile_append_of_pos others]
  simp

theorem partition_absent {c : Char} {text : Text} (absent : c ∉ text) : partition c text = (text,false,[]) := by
  have others : ∀ d ∈ text, decide (d ≠ c) = true := fun d member => by
    simpa using ne_of_mem_of_not_mem member absent
  rw [partition, List.takeWhile_eq_self_iff.mpr others, List.dropWhile_eq_nil_iff.mpr others]
  simp [absent]

theorem rpartition_absent {c : Char} {text : Text} (absent : c ∉ text) : rpartition c text = ([],false,text) := by
  have others : ∀ d ∈ text.reverse, decide (d ≠ c) = true := fun d member => by
    simpa using ne_of_mem_of_not_mem (List.mem_reverse.mp member) absent
  rw [rpartition, List.takeWhile_eq_self_iff.mpr others, List.dropWhile_eq_nil_iff.mpr others]
  simp [absent]

theorem partition_cases (c : Char) (text : Text) :
    (c ∉ text ∧ partition c text = (text,false,[])) ∨
      ∃ before rest, c ∉ before ∧ text = before ++ c :: rest ∧ partition c text = (before,true,rest) := by
  by_cases present : c ∈ text
  · obtain ⟨before,rest,rfl,absent⟩ := List.eq_append_cons_of_mem present
    exact .inr ⟨before,rest,absent,rfl,partition_append absent rest⟩
  · exact .inl ⟨present,partition_absent present⟩

/-- `urllib.parse.SplitResult` -/
structure SplitResult where
  scheme : Text
  netloc : Text
  path : Text
  query : Text
  fragment : Text
  deriving DecidableEq, Repr

def isSchemeChar (c : Char) : Bool := c.isAlphanum || c == '+' || c == '-' || c == '.'

/-- The scheme before the first colon, in lower case, and what follows the colon. -/
def schemeOf (url : Text) : Option (Text × Text) :=
  let (name,colon,rest) := partition ':' url
  if colon && name.head?.any Char.isAlpha && name.all isSchemeChar then some (name.map Char.toLower,rest) else none

/-- A delimiter ends the network location. -/
def isDelimiter (c : Char) : Bool := c == '/' || c == '?' || c == '#'

def isHexDigit (c : Char) : Bool :=
  c.isDigit || ('a' ≤ c && c ≤ 'f') || ('A' ≤ c && c ≤ 'F')

/-- `re.match(r"\Av[a-fA-F0-9]+\..+\Z", hostname)`, behind the `v` -/
def isFutureAddress (rest : Text) : Bool :=
  !(rest.takeWhile isHexDigit).isEmpty &&
    match rest.dropWhile isHexDigit with
    | '.' :: address => !address.isEmpty && !address.contains '\n'
    | _ => false

/-- `_check_bracketed_host` -/
def checkBracketedHost : Text → Bool
  | 'v' :: rest => isFutureAddress rest
  | hostname => tables.isIpv6 hostname

/-- `_check_bracketed_netloc` -/
def checkBracketedNetloc (netloc : Text) : Bool :=
  let hostnameAndPort := (rpartition '@' netloc).2.2
  let (before,opened,bracketed) := partition '[' hostnameAndPort
  if opened then
    let (hostname,_,port) := partition ']' bracketed
    before.isEmpty && (port.isEmpty || port.head? == some ':') && checkBracketedHost tables hostname
  else checkBracketedHost tables (partition ':' hostnameAndPort).1

/-- The brackets of the network location are balanced, and hold what may be in brackets. -/
def bracketsRead (netloc : Text) : Bool :=
  if netloc.contains '[' && netloc.contains ']' then checkBracketedNetloc tables netloc
  else !netloc.contains '[' && !netloc.contains ']'

/-- `_checknetloc` -/
def checkNetloc (netloc : Text) : Bool := !netloc.any tables.expands

/-- The network location behind two slashes, and what follows it. -/
def splitNetloc : Text → Text × Text
  | '/' :: '/' :: rest => (rest.takeWhile (!isDelimiter ·),rest.dropWhile (!isDelimiter ·))
  | url => ([],url)

/-- The URL without the characters that the splitter leaves out. -/
def cleaned (url : Text) : Text :=
  (url.dropWhile fun c => c.toNat ≤ 32).filter fun c => c ≠ '\t' ∧ c ≠ '\r' ∧ c ≠ '\n'

/-- `urlsplit` -/
def urlsplit (url : Text) : Except Raised SplitResult :=
  let (scheme,url) := (schemeOf (cleaned url)).getD ([],cleaned url)
  let (netloc,url) := splitNetloc url
  let (url,_,fragment) := partition '#' url
  let (path,_,query) := partition '?' url
  if bracketsRead tables netloc && checkNetloc tables netloc then .ok ⟨scheme,netloc,path,query,fragment⟩
  else .error .valueError

theorem splitNetloc_plain (url : Text) : ∀ c ∈ (splitNetloc url).1, isDelimiter c = false := by
  intro c member
  unfold splitNetloc at member
  split at member
  · simpa using List.mem_takeWhile_imp member
  · cases member

theorem urlsplit_netloc {url : Text} {parsed : SplitResult} (split_ : urlsplit tables url = .ok parsed) :
    bracketsRead tables parsed.netloc = true ∧ checkNetloc tables parsed.netloc = true ∧
      ∀ c ∈ parsed.netloc, isDelimiter c = false := by
  unfold urlsplit at split_
  dsimp only at split_
  split_ifs at split_ with checked
  cases split_
  rw [Bool.and_eq_true] at checked
  exact ⟨checked.1,checked.2,splitNetloc_plain _⟩

/-- A control character, as `host_is_allowed` finds it -/
def isControl (c : Char) : Bool := decide (c.toNat < 32) || decide (c.toNat = 127)

theorem cleaned_host {raw : Text} (plain : ∀ c ∈ raw, isControl c = false) :
    cleaned ('/' :: '/' :: raw) = '/' :: '/' :: raw := by
  rw [cleaned, List.dropWhile_cons_of_neg (by decide), List.filter_eq_self]
  intro c member
  rcases List.mem_cons.mp member with rfl | member
  · decide
  rcases List.mem_cons.mp member with rfl | member
  · decide
  have control := plain c member
  refine decide_eq_true ⟨?_,?_,?_⟩ <;> rintro rfl <;> exact absurd control (by decide)

/-- The host of a header, up to the first delimiter. -/
def hostPart (raw : Text) : Text := raw.takeWhile (!isDelimiter ·)

/-- How the splitter reads a host without control characters. -/
theorem urlsplit_host {raw : Text} (plain : ∀ c ∈ raw, isControl c = false) :
    urlsplit tables ('/' :: '/' :: raw) =
      if bracketsRead tables (hostPart raw) && checkNetloc tables (hostPart raw) then
        .ok ⟨[],hostPart raw,(partition '?' (partition '#' (raw.dropWhile (!isDelimiter ·))).1).1,
          (partition '?' (partition '#' (raw.dropWhile (!isDelimiter ·))).1).2.2,
          (partition '#' (raw.dropWhile (!isDelimiter ·))).2.2⟩
      else .error .valueError := by
  have schemeless : schemeOf ('/' :: '/' :: raw) = none := by
    simp [schemeOf, partition]
  rw [urlsplit, cleaned_host plain, schemeless]
  rfl

namespace SplitResult

variable (parsed : SplitResult)

/-- `_userinfo` -/
def userinfo : Option (Text × Option Text) :=
  match rpartition '@' parsed.netloc with
  | (info,true,_) =>
    let (username,hasPassword,password) := partition ':' info
    some (username,if hasPassword then some password else none)
  | _ => none

def username : Option Text := parsed.userinfo.map (·.1)

def password : Option Text := parsed.userinfo.bind (·.2)

end SplitResult

/-- `_hostinfo` of a network location -/
def hostinfo (netloc : Text) : Text × Option Text :=
  let hostinfo := (rpartition '@' netloc).2.2
  let (_,opened,bracketed) := partition '[' hostinfo
  let (hostname,port) :=
    if opened then
      let (hostname,_,port) := partition ']' bracketed
      (hostname,(partition ':' port).2.2)
    else
      let (hostname,_,port) := partition ':' hostinfo
      (hostname,port)
  (hostname,if port.isEmpty then none else some port)

/-- The host name in lower case, apart from the zone of a scoped address. -/
def lowered (hostname : Text) : Text :=
  let (name,percent,zone) := partition '%' hostname
  tables.lower name ++ if percent then '%' :: zone else []

theorem fold_lowered (hostname : Text) : fold tables (lowered tables hostname) = fold tables hostname := by
  rcases partition_cases '%' hostname with ⟨_,unscoped⟩ | ⟨name,zone,_,rfl,scoped_⟩
  · rw [lowered, unscoped]
    simpa using show fold tables (tables.lower hostname) = fold tables hostname from tables.casefold_lower hostname
  · have lower : fold tables (tables.lower name) = fold tables name := tables.casefold_lower name
    rw [lowered, scoped_]
    simp [lower]

theorem hostinfo_subset (netloc : Text) : ∀ c ∈ (hostinfo netloc).1, c ∈ netloc := by
  intro c member
  have last : ∀ d ∈ (rpartition '@' netloc).2.2, d ∈ netloc := fun d inside =>
    List.mem_reverse.mp ((List.takeWhile_sublist _).subset (List.mem_reverse.mp inside))
  have before (e : Char) (text : Text) : ∀ d ∈ (partition e text).1, d ∈ text := fun d inside =>
    (List.takeWhile_sublist _).subset inside
  have after (e : Char) (text : Text) : ∀ d ∈ (partition e text).2.2, d ∈ text := fun d inside =>
    (List.dropWhile_sublist _).subset (List.mem_of_mem_drop inside)
  refine last c ?_
  unfold hostinfo at member
  dsimp only at member
  split at member
  · exact after '[' _ c (before ']' _ c member)
  · exact before ':' _ c member

/-- The host name of a location that the splitter reads closes no bracket. -/
theorem hostinfo_unclosed {netloc : Text} (read : bracketsRead tables netloc = true) (single : '@' ∉ netloc) :
    ']' ∉ (hostinfo netloc).1 := by
  intro closed
  have inside := hostinfo_subset netloc _ closed
  have opened : '[' ∈ netloc := by
    by_contra absent
    simp [bracketsRead, absent, inside] at read
  unfold hostinfo at closed
  rw [rpartition_absent single] at closed
  have found : (partition '[' netloc).2.1 = true := by simpa [partition] using opened
  simp only [found, if_true] at closed
  simpa using List.mem_takeWhile_imp closed

/-- `int(port)`, of at most as many digits as `sys.int_info` lets a conversion have -/
def readPort (port : Text) : Except Raised Nat :=
  if port.all Char.isDigit && port.length ≤ 4300 && Nat.ofDigitChars 10 port 0 ≤ 65535 then
    .ok (Nat.ofDigitChars 10 port 0)
  else .error .valueError

namespace SplitResult

variable (parsed : SplitResult)

def hostname : Option Text :=
  let name := (hostinfo parsed.netloc).1
  if name.isEmpty then none else some (lowered tables name)

def port : Except Raised (Option Nat) :=
  match (hostinfo parsed.netloc).2 with
  | none => .ok none
  | some port => (readPort port).map some

end SplitResult

/-! ### The settings -/

inductive AppEnvironment where
  | development
  | test
  | production
  deriving DecidableEq, Repr

/-- The settings that the checks of hosts, origins and tokens read. -/
structure Settings where
  env : AppEnvironment
  applicationOrigin : Text
  csrfRequired : Bool
  requireOriginHeader : Option Bool
  deriving DecidableEq, Repr

/-- `effective_require_origin_header` -/
def Settings.effectiveRequireOriginHeader (settings : Settings) : Bool :=
  settings.requireOriginHeader.getD (settings.env == .production)

/-- What `enforce_isolation_policy` asks of the split application origin. -/
def absoluteOrigin (origin : SplitResult) : Bool :=
  (origin.scheme == lit "http" || origin.scheme == lit "https") && !origin.netloc.isEmpty &&
    origin.username.isNone && origin.password.isNone && (origin.path.isEmpty || origin.path == ['/']) &&
    origin.query.isEmpty && origin.fragment.isEmpty

/-- The checks of `enforce_isolation_policy` on these settings. -/
def enforceIsolationPolicy (settings : Settings) : Bool :=
  match urlsplit tables settings.applicationOrigin with
  | .error _ => false
  | .ok origin => absoluteOrigin origin &&
      (settings.env != .production ||
        (origin.scheme == lit "https" && settings.csrfRequired && settings.effectiveRequireOriginHeader))

/-- The settings with which a service runs in production. -/
structure ProductionSettings extends Settings where
  production : env = .production
  enforced : enforceIsolationPolicy tables toSettings = true

/-- Tables that fold the letters of ASCII only. -/
def asciiTables : Tables where
  lower text := text.map Char.toLower
  casefold c := [c.toLower]
  expands _ := false
  isIpv6 text := text.contains ':'
  casefold_ascii _ _ := rfl
  casefold_letter c large d member small := by
    rw [List.mem_singleton] at member
    have lower : ¬ c.isUpper := by
      intro upper
      have val : c.val.toNat = c.toNat := rfl
      simp only [Char.isUpper, decide_eq_true_eq, UInt32.le_iff_toNat_le, val] at upper
      have bound : c.toNat ≤ 90 := upper.2
      omega
    rw [member, Char.toLower_eq_of_not_isUpper lower] at small
    omega
  casefold_ne_nil _ := List.cons_ne_nil _ _
  casefold_casefold c := by simp
  casefold_lower text := by simp [List.flatMap_map]
  expands_other _ expands := by cases expands
  expands_casefold _ := rfl

/-- A configuration for production. -/
def exampleSettings : ProductionSettings asciiTables where
  env := .production
  applicationOrigin := lit "https://docguard.example"
  csrfRequired := true
  requireOriginHeader := none
  production := rfl
  enforced := by decide

end DocGuard.Origins
