import DocGuard.Origins

/-!
The canonical authority of the service, and the hosts that requests may name. A host
is let in exactly if it is that authority, unless it is spelled in another way than
its own name and port are written, a name that is compared is not ASCII, or the
configured port cannot be read or is zero.
-/
namespace DocGuard.HostNames
open DocGuard.Origins

def MAX_HOST_HEADER_BYTES : Nat := 255

variable (tables : Tables)

def defaultPort (origin : SplitResult) : Nat := if origin.scheme == lit "https" then 443 else 80

/-- A host name in an authority: an address stands in brackets -/
def bracketed (host : Text) : Text := if host.contains ':' then '[' :: host ++ [']'] else host

def portSuffix : Option Nat → Text
  | none => []
  | some port => ':' :: Nat.toDigits 10 port

/-- A host name and a port as an authority -/
def spell (host : Text) (port : Option Nat) : Text := bracketed host ++ portSuffix port

/-- `canonical_authority` -/
def canonicalAuthority (settings : Settings) : Except Raised Text := do
  let origin ← urlsplit tables settings.applicationOrigin
  match origin.hostname tables with
  | none => .error .assertionError
  | some hostname =>
    let host := bracketed (fold tables hostname)
    let port ← origin.port
    .ok (if port = none ∨ port = some (defaultPort origin) then host else host ++ portSuffix port)

/-- The host name and the port that a header names; without them the host is turned away. -/
def observed (rawHost : Text) : Option (Text × Option Nat) :=
  if rawHost.isEmpty || decide (MAX_HOST_HEADER_BYTES < rawHost.length) || rawHost.any isControl then none
  else match urlsplit tables ('/' :: '/' :: rawHost) with
    | .error _ => none
    | .ok parsed =>
      if parsed.username.isSome || parsed.password.isSome || !parsed.path.isEmpty then none
      else match parsed.port with
        | .error _ => none
        | .ok port => (parsed.hostname tables).map (·,port)

/-- The port that is expected matches the one that is observed; `or` takes a port 0 for none. -/
def portMatches (origin : SplitResult) (originPort observedPort : Option Nat) : Bool :=
  let expectedPort := if originPort.getD 0 = 0 then defaultPort origin else originPort.getD 0
  if originPort.isSome && originPort != some (defaultPort origin) then observedPort == some expectedPort
  else observedPort == none || observedPort == some (defaultPort origin)

/-- `host_is_allowed` -/
def hostIsAllowed (rawHost : Option Text) (settings : Settings) : Except Raised Bool :=
  match rawHost.bind (observed tables) with
  | none => .ok false
  | some (observedHost,observedPort) =>
    if settings.env != .production && fold tables observedHost == lit "test" then .ok true
    else do
      let origin ← urlsplit tables settings.applicationOrigin
      let originPort ← origin.port
      let same ← compareDigest (fold tables observedHost) (fold tables ((origin.hostname tables).getD []))
      .ok (same && portMatches origin originPort observedPort)

/-! ### Spelling an authority -/

theorem colon_caseless : Caseless ':' := by decide

theorem mem_suffix {port : Option Nat} {c : Char} (member : c ∈ portSuffix port) : c = ':' ∨ c.isDigit = true := by
  cases port with
  | none => cases member
  | some port =>
    rcases List.mem_cons.mp member with colon | digit
    · exact .inl colon
    · exact .inr (Nat.isDigit_of_mem_toDigits (by decide) (by decide) digit)

theorem suffix_caseless (port : Option Nat) : ∀ c ∈ portSuffix port, Caseless c := by
  intro c member
  rcases mem_suffix member with rfl | digit
  · decide
  · exact caseless_of_isDigit digit

theorem fold_bracketed (host : Text) : fold tables (bracketed host) = bracketed (fold tables host) := by
  have same : ':' ∈ fold tables host ↔ ':' ∈ host := mem_fold tables colon_caseless
  by_cases address : ':' ∈ host
  · have opened : Caseless '[' := by decide
    have closed : Caseless ']' := by decide
    simp [bracketed, address, same, casefold_caseless, opened, closed]
  · simp [bracketed, address, same]

theorem fold_spell (host : Text) (port : Option Nat) : fold tables (spell host port) = spell (fold tables host) port := by
  rw [spell, fold_append, fold_bracketed, fold_caseless tables (suffix_caseless port), spell]

/-- What is an authority up to letter case, is written as one. -/
theorem spell_of_fold {raw host : Text} {port : Option Nat} (same : fold tables raw = spell (fold tables host) port) :
    ∃ name, raw = spell name port ∧ fold tables name = fold tables host := by
  have colon (name : Text) (folded : fold tables name = fold tables host) : ':' ∈ name ↔ ':' ∈ fold tables host := by
    rw [← folded, mem_fold tables colon_caseless]
  by_cases address : ':' ∈ fold tables host
  · simp only [spell, bracketed, List.contains_iff_mem, address, if_true, List.cons_append, List.append_assoc,
      List.nil_append] at same
    obtain ⟨x,y,rfl,empty,later⟩ := fold_split tables (a := []) (d := '[') (by decide) same
    obtain ⟨name,z,rfl,folded,later⟩ := fold_split tables (d := ']') (by decide) later
    obtain rfl := fold_eq_nil tables empty
    refine ⟨name,?_,folded⟩
    rw [fold_eq_caseless tables (suffix_caseless port) later, spell, bracketed,
      if_pos (List.contains_iff_mem.mpr ((colon name folded).mpr address))]
    simp
  · have plain (name : Text) (folded : fold tables name = fold tables host) : bracketed name = name :=
      if_neg fun contained => address ((colon name folded).mp (List.contains_iff_mem.mp contained))
    rw [spell, bracketed, if_neg (by simpa using address)] at same
    cases port with
    | none =>
      have folded : fold tables raw = fold tables host := by simpa [portSuffix] using same
      exact ⟨raw,by rw [spell, plain raw folded, portSuffix, List.append_nil],folded⟩
    | some port =>
      obtain ⟨name,digits,rfl,folded,later⟩ := fold_split tables (d := ':') (by decide) same
      refine ⟨name,?_,folded⟩
      have caseless : ∀ c ∈ Nat.toDigits 10 port, Caseless c := fun c member =>
        suffix_caseless (some port) c (List.mem_cons_of_mem _ member)
      rw [fold_eq_caseless tables caseless later, spell, plain name folded, portSuffix]

theorem mem_spell {host : Text} {port : Option Nat} {c : Char} (member : c ∈ spell host port) :
    c ∈ host ∨ c = '[' ∨ c = ']' ∨ c = ':' ∨ c.isDigit = true := by
  rcases List.mem_append.mp member with inside | inside
  · unfold bracketed at inside
    split at inside
    · simp only [List.cons_append, List.mem_cons, List.mem_append, List.not_mem_nil, or_false] at inside
      tauto
    · exact .inl inside
  · exact .inr (.inr (.inr (mem_suffix inside)))

theorem readPort_toDigits {port : Nat} (small : port ≤ 65535) : readPort (Nat.toDigits 10 port) = .ok port := by
  have digits : (Nat.toDigits 10 port).all Char.isDigit = true :=
    List.all_eq_true.mpr fun c => Nat.isDigit_of_mem_toDigits (by decide) (by decide)
  have short : (Nat.toDigits 10 port).length ≤ 5 := Nat.toDigits_length 10 port 5 (by decide) (by omega)
  simp [readPort, digits, Nat.ofDigitChars_ten_toDigits, small, (by omega : (Nat.toDigits 10 port).length ≤ 4300)]

theorem port_of_suffix {port : Option Nat} :
    (partition ':' (portSuffix port)).2.2 = (port.map (Nat.toDigits 10)).getD [] := by
  cases port with
  | none => rfl
  | some port => rw [portSuffix, ← List.nil_append (':' :: _), partition_append List.not_mem_nil]; rfl

/-- The splitter reads back what an authority is written from. -/
theorem hostinfo_spell {host : Text} {port : Option Nat} (single : '@' ∉ host) (unclosed : ']' ∉ host)
    (read : bracketsRead tables (spell host port) = true) :
    hostinfo (spell host port) = (host,port.map (Nat.toDigits 10)) := by
  have whole : '@' ∉ spell host port := by
    intro member
    rcases mem_spell member with inside | same | same | same | digit
    · exact single inside
    all_goals first | cases same | cases digit
  have texts : (if ((port.map (Nat.toDigits 10)).getD []).isEmpty then none else some ((port.map (Nat.toDigits 10)).getD []))
      = port.map (Nat.toDigits 10) := by
    cases port with
    | none => rfl
    | some port => simp [Nat.toDigits_ne_nil]
  by_cases address : ':' ∈ host
  · have written : spell host port = [] ++ '[' :: (host ++ ']' :: portSuffix port) := by
      simp [spell, bracketed, address]
    rw [hostinfo, rpartition_absent whole]
    simp only [written, partition_append List.not_mem_nil, partition_append unclosed, if_true, port_of_suffix, texts]
  · have written : spell host port = host ++ portSuffix port := by
      simp [spell, bracketed, address]
    have unopened : '[' ∉ spell host port := by
      intro opened
      have closed : ']' ∉ spell host port := by
        rw [written, List.mem_append]
        rintro (inside | inside)
        · exact unclosed inside
        · rcases mem_suffix inside with same | digit
          · cases same
          · cases digit
      simp [bracketsRead, opened, closed] at read
    rw [hostinfo, rpartition_absent whole]
    simp only [partition_absent unopened, Bool.false_eq_true, if_false]
    cases port with
    | none => 
      rw [written, portSuffix, List.append_nil, partition_absent address]
      rfl
    | some port =>
      rw [written, portSuffix, partition_append address]
      simp [Nat.toDigits_ne_nil]

/-! ### The configured authority -/

/-- The string is the canonical authority up to letter case, or that with its default port written out. -/
def IsAuthority (raw : Text) (settings : Settings) : Prop :=
  ∃ origin authority, urlsplit tables settings.applicationOrigin = .ok origin ∧
    canonicalAuthority tables settings = .ok authority ∧
      (fold tables raw = fold tables authority ∨
        (origin.port = .ok none ∨ origin.port = .ok (some (defaultPort origin))) ∧
          fold tables raw = fold tables (authority ++ portSuffix (some (defaultPort origin))))

/-- The port that the canonical authority is written with. -/
def shownPort (origin : SplitResult) (originPort : Option Nat) : Option Nat :=
  if originPort = none ∨ originPort = some (defaultPort origin) then none else originPort

variable {tables} {settings : Settings} {origin : SplitResult}
  (split_ : urlsplit tables settings.applicationOrigin = .ok origin)

include split_

theorem canonicalAuthority_ok {authority : Text} : canonicalAuthority tables settings = .ok authority ↔
    ∃ hostname originPort, origin.hostname tables = some hostname ∧ origin.port = .ok originPort ∧
      authority = spell (fold tables hostname) (shownPort origin originPort) := by
  simp only [canonicalAuthority, split_, bind, Except.bind]
  cases origin.hostname tables with
  | none => simp
  | some hostname =>
    cases origin.port with
    | error raised => simp
    | ok originPort =>
      by_cases elided : originPort = none ∨ originPort = some (defaultPort origin)
      · simp [shownPort, spell, portSuffix, elided, eq_comm]
      · simp [shownPort, spell, elided, eq_comm]

theorem isAuthority_iff (raw : Text) : IsAuthority tables raw settings ↔
    ∃ hostname originPort port, origin.hostname tables = some hostname ∧ origin.port = .ok originPort ∧
      port.getD (defaultPort origin) = originPort.getD (defaultPort origin) ∧
        fold tables raw = spell (fold tables hostname) port := by
  have folded (hostname : Text) (port : Option Nat) :
      fold tables (spell (fold tables hostname) port) = spell (fold tables hostname) port := by
    rw [fold_spell, fold_fold]
  have written (host : Text) : spell host none ++ portSuffix (some (defaultPort origin)) =
      spell host (some (defaultPort origin)) := by
    simp [spell, portSuffix]
  constructor
  · rintro ⟨_,authority,again,canonical,same⟩
    cases split_.symm.trans again
    obtain ⟨hostname,originPort,named,read,rfl⟩ := (canonicalAuthority_ok split_).mp canonical
    by_cases elided : originPort = none ∨ originPort = some (defaultPort origin)
    · have default : originPort.getD (defaultPort origin) = defaultPort origin := by
        rcases elided with rfl | rfl <;> rfl
      rw [shownPort, if_pos elided, written, folded, folded] at same
      rcases same with same | ⟨_,same⟩
      · exact ⟨hostname,originPort,none,named,read,default.symm,same⟩
      · exact ⟨hostname,originPort,some (defaultPort origin),named,read,default.symm,same⟩
    · rw [shownPort, if_neg elided, folded, read] at same
      rcases same with same | ⟨other,_⟩
      · exact ⟨hostname,originPort,originPort,named,read,rfl,same⟩
      · simp only [Except.ok.injEq] at other
        exact absurd other elided
  · rintro ⟨hostname,originPort,port,named,read,agree,same⟩
    refine ⟨origin,_,split_,(canonicalAuthority_ok split_).mpr ⟨hostname,originPort,named,read,rfl⟩,?_⟩
    by_cases elided : originPort = none ∨ originPort = some (defaultPort origin)
    · rw [shownPort, if_pos elided, written, folded, folded, read]
      have default : port.getD (defaultPort origin) = defaultPort origin := by
        rw [agree]
        rcases elided with rfl | rfl <;> rfl
      cases port with
      | none => exact .inl same
      | some port =>
        rw [Option.getD_some] at default
        exact .inr ⟨by simpa using elided,default ▸ same⟩
    · rw [shownPort, if_neg elided, folded]
      refine .inl ?_
      cases originPort with
      | none => simp at elided
      | some own =>
        cases port with
        | none => simp_all
        | some port => simp_all

omit split_

theorem defaultPort_pos (origin : SplitResult) : defaultPort origin ≠ 0 ∧ defaultPort origin ≤ 65535 := by
  unfold defaultPort
  split <;> exact ⟨by decide,by decide⟩

theorem portMatches_iff {originPort port : Option Nat} (nonzero : originPort ≠ some 0) :
    portMatches origin originPort port = true ↔
      port.getD (defaultPort origin) = originPort.getD (defaultPort origin) := by
  have _positive := (defaultPort_pos origin).1
  cases originPort with
  | none => cases port <;> simp [portMatches]
  | some own =>
    have own_pos : own ≠ 0 := fun zero => nonzero (by rw [zero])
    by_cases default : own = defaultPort origin
    · cases port <;> simp [portMatches, default]
    · have other : defaultPort origin ≠ own := fun same => default same.symm
      cases port <;> simp [portMatches, default, own_pos, other]

theorem portMatches_zero {port : Option Nat} :
    portMatches origin (some 0) port = true ↔ port = some (defaultPort origin) := by
  have positive := (defaultPort_pos origin).1
  simp [portMatches, positive.symm]

theorem port_le {port : Nat} (read : origin.port = .ok (some port)) : port ≤ 65535 := by
  unfold SplitResult.port at read
  split at read
  · cases read
  · rename_i digits _
    by_cases readable : digits.all Char.isDigit && digits.length ≤ 4300 && Nat.ofDigitChars 10 digits 0 ≤ 65535
    · rw [readPort, if_pos readable] at read
      cases read
      simpa using (Bool.and_eq_true_iff.mp readable).2
    · rw [readPort, if_neg readable] at read
      cases read

/-! ### The hosts that are let in -/

variable (tables) in
/-- The guards or the brackets of the splitter turn the host away. -/
def Refused (raw : Text) : Prop :=
  MAX_HOST_HEADER_BYTES < raw.length ∨ (∃ c ∈ raw, isControl c = true) ∨ bracketsRead tables raw = false

/-- The host is what its own name and port are written as. -/
def Plain (raw : Text) (port : Option Nat) : Prop := raw = spell (hostinfo (hostPart raw)).1 port

theorem observed_some {raw host : Text} {port : Option Nat} (seen : observed tables raw = some (host,port)) :
    raw.length ≤ MAX_HOST_HEADER_BYTES ∧ (∀ c ∈ raw, isControl c = false) ∧
      bracketsRead tables (hostPart raw) = true ∧ host = lowered tables (hostinfo (hostPart raw)).1 ∧
        (hostinfo (hostPart raw)).1 ≠ [] := by
  unfold observed at seen
  split_ifs at seen with guards
  simp only [Bool.or_eq_true, decide_eq_true_eq, not_or, List.any_eq_true, not_exists, not_and,
    Bool.not_eq_true] at guards
  obtain ⟨⟨_,short⟩,plain⟩ := guards
  rw [urlsplit_host tables plain] at seen
  split_ifs at seen with checked
  · rw [Bool.and_eq_true] at checked
    dsimp only at seen
    split_ifs at seen
    split at seen
    · cases seen
    · rename_i read
      simp only [SplitResult.hostname] at seen
      by_cases unnamed : (hostinfo (hostPart raw)).1.isEmpty
      · simp [unnamed] at seen
      · simp only [unnamed] at seen
        cases seen
        exact ⟨by omega,plain,checked.1,rfl,by simpa using unnamed⟩

variable (tables) in
/-- The name of the configured origin, as it stands in the network location. -/
structure Named (own : Text) : Prop where
  some : own ≠ []
  single : '@' ∉ own
  unclosed : ']' ∉ own
  undelimited : ∀ c ∈ own, isDelimiter c = false
  contained : own.any tables.expands = false

theorem named_of_hostname {hostname : Text} (split_ : urlsplit tables settings.applicationOrigin = .ok origin)
    (single : '@' ∉ origin.netloc) (named : origin.hostname tables = some hostname) :
    ∃ own, Named tables own ∧ fold tables hostname = fold tables own := by
  obtain ⟨read,checked,plain⟩ := urlsplit_netloc tables split_
  have inside := hostinfo_subset origin.netloc
  unfold SplitResult.hostname at named
  by_cases empty : (hostinfo origin.netloc).1.isEmpty
  · simp [empty] at named
  · simp only [empty] at named
    cases named
    refine ⟨_,⟨by simpa using empty,fun member => single (inside _ member),hostinfo_unclosed tables read single,
      fun c member => plain c (inside c member),?_⟩,fold_lowered tables _⟩
    by_contra expands
    rw [Bool.not_eq_false, List.any_eq_true] at expands
    obtain ⟨c,member,expands⟩ := expands
    simp only [checkNetloc, Bool.not_eq_true', List.any_eq_false] at checked
    exact checked c (inside c member) expands

/-- A name with the folding of the configured one has the same delimiters, and expands as little. -/
theorem named_of_fold {own name : Text} (named : Named tables own)
    (same : fold tables name = fold tables own) : Named tables name := by
  have member {c : Char} (caseless : Caseless c) : c ∈ name ↔ c ∈ own := by
    rw [← mem_fold tables caseless, same, mem_fold tables caseless]
  refine ⟨?_,?_,?_,?_,?_⟩
  · rintro rfl
    exact named.some (fold_eq_nil tables same.symm)
  · rw [member (by decide)]
    exact named.single
  · rw [member (by decide)]
    exact named.unclosed
  · intro c inside
    by_contra delimits
    have caseless : Caseless c := by
      simp only [isDelimiter, Bool.not_eq_false, Bool.or_eq_true, beq_iff_eq] at delimits
      rcases delimits with (rfl | rfl) | rfl <;> decide
    exact delimits (named.undelimited c ((member caseless).mp inside))
  · rw [← expands_fold tables, same, expands_fold tables, named.contained]

theorem spell_undelimited {name : Text} (port : Option Nat) (named : Named tables name) :
    ∀ c ∈ spell name port, (!isDelimiter c) = true := by
  intro c member
  rcases mem_spell member with inside | rfl | rfl | rfl | digit
  · simpa using named.undelimited c inside
  · rfl
  · rfl
  · rfl
  · by_contra delimits
    simp only [isDelimiter, Bool.not_eq_true, Bool.not_eq_false', Bool.or_eq_true, beq_iff_eq] at delimits
    rcases delimits with (rfl | rfl) | rfl <;> cases digit

/-- Unless it is turned away, an authority of the name is read as the name and the port it is written with. -/
theorem observed_spell {name : Text} {port : Option Nat} (named : Named tables name)
    (small : ∀ n ∈ port, n ≤ 65535) (accepted : ¬ Refused tables (spell name port)) :
    observed tables (spell name port) = some (lowered tables name,port) ∧
      (hostinfo (hostPart (spell name port))).1 = name := by
  simp only [Refused, not_or, not_exists, not_and, Bool.not_eq_true, Bool.not_eq_false] at accepted
  obtain ⟨short,plain,read⟩ := accepted
  have undelimited := spell_undelimited port named
  have whole : hostPart (spell name port) = spell name port := List.takeWhile_eq_self_iff.mpr undelimited
  have nothing : (spell name port).dropWhile (!isDelimiter ·) = [] := List.dropWhile_eq_nil_iff.mpr undelimited
  have single : '@' ∉ spell name port := by
    intro member
    rcases mem_spell member with inside | same | same | same | digit
    · exact named.single inside
    all_goals first | cases same | cases digit
  have checked : checkNetloc tables (spell name port) = true := by
    simp only [checkNetloc, Bool.not_eq_true', List.any_eq_false]
    intro c member expands
    have large := tables.expands_other c expands
    rcases mem_spell member with inside | rfl | rfl | rfl | digit
    · exact absurd (List.any_eq_true.mpr ⟨c,inside,expands⟩) (by simp [named.contained])
    · exact absurd large (by decide)
    · exact absurd large (by decide)
    · exact absurd large (by decide)
    · have small := (caseless_of_isDigit digit).1
      omega
  have info := hostinfo_spell tables named.single named.unclosed read
  have filled : spell name port ≠ [] := by
    intro empty
    rw [empty] at info
    exact named.some (congrArg Prod.fst info).symm
  have guards : ((spell name port).isEmpty || decide (MAX_HOST_HEADER_BYTES < (spell name port).length) ||
      (spell name port).any isControl) = false := by
    simp only [Bool.or_eq_false_iff, List.isEmpty_eq_false_iff, decide_eq_false_iff_not, List.any_eq_false]
    exact ⟨⟨filled,short⟩,fun c member => by simp [plain c member]⟩
  have anonymous : rpartition '@' (spell name port) = ([],false,spell name port) := rpartition_absent single
  have portRead (parsed : SplitResult) (own : parsed.netloc = spell name port) : parsed.port = .ok port := by
    rw [SplitResult.port, own, info]
    cases port with
    | none => rfl
    | some n =>
      simp only [Option.map_some, readPort_toDigits (small n rfl)]
      rfl
  refine ⟨?_,by rw [whole, info]⟩
  rw [observed, guards, urlsplit_host tables plain, whole, read, checked, nothing]
  simp [SplitResult.username, SplitResult.password, SplitResult.userinfo, anonymous, portRead, SplitResult.hostname, info,
    named.some, partition]

variable (tables) in
/-- Let in exactly if it is the canonical authority. -/
def Exact (raw : Text) (settings : Settings) : Prop :=
  ∃ allowed, hostIsAllowed tables (some raw) settings = .ok allowed ∧ (allowed = true ↔ IsAuthority tables raw settings)

variable (tables) in
/-- The names are compared, and where they are equal the ports agree for a plainly written host only. -/
def Compared (raw : Text) (settings : Settings) (host : Text) (port : Option Nat) : Prop :=
  ∃ origin originPort, urlsplit tables settings.applicationOrigin = .ok origin ∧ origin.port = .ok originPort ∧
    isAscii (fold tables host) = true ∧ isAscii (fold tables ((origin.hostname tables).getD [])) = true ∧
      (fold tables host = fold tables ((origin.hostname tables).getD []) →
        (originPort ≠ some 0 → port.getD (defaultPort origin) = originPort.getD (defaultPort origin) → Plain raw port) ∧
          (originPort = some 0 → port ≠ some (defaultPort origin) ∧ (port = some 0 → ¬ Plain raw port)))

variable (tables) in
/-- The host is not an authority that is turned away, and what is read from it compares. -/
structure Settled (raw : Text) (settings : Settings) : Prop where
  accepted : Refused tables raw → ¬ IsAuthority tables raw settings
  compared : ∀ host port, observed tables raw = some (host,port) → Compared tables raw settings host port

theorem production_origin (settings : ProductionSettings tables) : ∃ origin,
    urlsplit tables settings.applicationOrigin = .ok origin ∧ '@' ∉ origin.netloc := by
  have enforced := settings.enforced
  unfold enforceIsolationPolicy at enforced
  split at enforced
  · cases enforced
  · rename_i origin split_
    refine ⟨origin,split_,fun member => ?_⟩
    have anonymous : origin.username = none := by
      simp only [absoluteOrigin, Bool.and_eq_true, Option.isNone_iff_eq_none] at enforced
      exact enforced.1.1.1.1.1.2
    have found : rpartition '@' origin.netloc = ((rpartition '@' origin.netloc).1,true,(rpartition '@' origin.netloc).2.2) :=
      Prod.ext rfl (Prod.ext (by simpa [rpartition] using member) rfl)
    rw [SplitResult.username, SplitResult.userinfo, found] at anonymous
    cases anonymous

theorem authority_spelled {raw : Text} (split_ : urlsplit tables settings.applicationOrigin = .ok origin)
    (single : '@' ∉ origin.netloc) (authority : IsAuthority tables raw settings) :
    ∃ name hostname originPort port, raw = spell name port ∧ Named tables name ∧
      origin.hostname tables = some hostname ∧ origin.port = .ok originPort ∧ (∀ n ∈ port, n ≤ 65535) ∧
        port.getD (defaultPort origin) = originPort.getD (defaultPort origin) ∧
          fold tables name = fold tables hostname := by
  obtain ⟨hostname,originPort,port,given,read,agree,same⟩ := (isAuthority_iff split_ raw).mp authority
  obtain ⟨own,named,folded⟩ := named_of_hostname split_ single given
  obtain ⟨name,rfl,similar⟩ := spell_of_fold tables same
  refine ⟨name,hostname,originPort,port,rfl,named_of_fold named (similar.trans folded),given,read,?_,agree,similar⟩
  rintro n rfl
  rw [Option.getD_some] at agree
  rw [agree]
  cases originPort with
  | none => exact (defaultPort_pos origin).2
  | some own => exact port_le read

theorem spelled_accepted {name host : Text} {shown port : Option Nat} (named : Named tables name)
    (seen : observed tables (spell name shown) = some (host,port)) : ¬ Refused tables (spell name shown) := by
  obtain ⟨short,plain,brackets,_⟩ := observed_some seen
  have whole : hostPart (spell name shown) = spell name shown :=
    List.takeWhile_eq_self_iff.mpr (spell_undelimited shown named)
  rintro (long | ⟨c,member,control⟩ | unread)
  · omega
  · rw [plain c member] at control
    cases control
  · rw [whole, unread] at brackets
    cases brackets

theorem isAuthority_observed {raw host : Text} {port originPort : Option Nat}
    (split_ : urlsplit tables settings.applicationOrigin = .ok origin) (single : '@' ∉ origin.netloc)
    (read : origin.port = .ok originPort) (seen : observed tables raw = some (host,port)) :
    IsAuthority tables raw settings ↔ fold tables host = fold tables ((origin.hostname tables).getD []) ∧
      port.getD (defaultPort origin) = originPort.getD (defaultPort origin) ∧ Plain raw port := by
  obtain ⟨_,_,_,lower,filled⟩ := observed_some seen
  constructor
  · intro authority
    obtain ⟨name,hostname,_,shown,rfl,named,given,again,small,agree,similar⟩ :=
      authority_spelled split_ single authority
    cases read.symm.trans again
    obtain ⟨reading,info⟩ := observed_spell named small (spelled_accepted named seen)
    cases seen.symm.trans reading
    refine ⟨?_,agree,?_⟩
    · rw [fold_lowered, given, Option.getD_some, similar]
    · rw [Plain, info]
  · rintro ⟨same,agree,written⟩
    rw [lower, fold_lowered] at same
    cases given : origin.hostname tables with
    | none =>
      rw [given] at same
      exact absurd (fold_eq_nil tables same) filled
    | some hostname =>
      rw [given, Option.getD_some] at same
      refine (isAuthority_iff split_ raw).mpr ⟨hostname,originPort,port,given,read,agree,?_⟩
      have folded := congrArg (fold tables) written
      rwa [fold_spell, same] at folded

theorem hostIsAllowed_production (settings : ProductionSettings tables) (raw : Text)
    (split_ : urlsplit tables settings.applicationOrigin = .ok origin) :
    hostIsAllowed tables (some raw) settings.toSettings = match observed tables raw with
      | none => .ok false
      | some (host,port) => origin.port.bind fun originPort =>
          (compareDigest (fold tables host) (fold tables ((origin.hostname tables).getD []))).bind fun same =>
            .ok (same && portMatches origin originPort port) := by
  simp only [hostIsAllowed, Option.bind_some, settings.production, split_]
  cases observed tables raw <;> rfl

/-- The ports match where they agree, and only a plainly written host is an authority. -/
theorem matches_exactly {port originPort : Option Nat} {plain : Prop} :
    (portMatches origin originPort port = true ↔
        port.getD (defaultPort origin) = originPort.getD (defaultPort origin) ∧ plain) ↔
      (originPort ≠ some 0 → port.getD (defaultPort origin) = originPort.getD (defaultPort origin) → plain) ∧
        (originPort = some 0 → port ≠ some (defaultPort origin) ∧ (port = some 0 → ¬ plain)) := by
  have positive := (defaultPort_pos origin).1
  by_cases zero : originPort = some 0
  · subst zero
    have agree : port.getD (defaultPort origin) = (some 0).getD (defaultPort origin) ↔ port = some 0 := by
      cases port with
      | none => simp [positive]
      | some n => simp
    rw [portMatches_zero, agree]
    by_cases default : port = some (defaultPort origin)
    · simp [default, positive]
    · simp [default]
  · rw [portMatches_iff zero]
    simp [zero]

/-- The check of the host never fails and lets in the canonical authority alone, exactly where the host and the
    configured origin are settled. -/
theorem host_allowed_iff (settings : ProductionSettings tables) (raw : Text) :
    Exact tables raw settings.toSettings ↔ Settled tables raw settings.toSettings := by
  obtain ⟨origin,split_,single⟩ := production_origin settings
  have allowed := hostIsAllowed_production settings raw split_
  cases seen : observed tables raw with
  | none =>
    simp only [seen] at allowed
    have turned : Exact tables raw settings.toSettings ↔ ¬ IsAuthority tables raw settings.toSettings := by
      simp [Exact, allowed]
    rw [turned]
    refine ⟨fun none => ⟨fun _ => none,fun _ _ some => by cases seen.symm.trans some⟩,fun settled authority => ?_⟩
    by_cases refused : Refused tables raw
    · exact settled.accepted refused authority
    · obtain ⟨name,_,_,port,rfl,named,_,_,small,_,_⟩ := authority_spelled split_ single authority
      cases seen.symm.trans (observed_spell named small refused).1
  | some read =>
    obtain ⟨host,port⟩ := read
    simp only [seen] at allowed
    have accepted : Refused tables raw → ¬ IsAuthority tables raw settings.toSettings := by
      intro refused authority
      obtain ⟨name,_,_,shown,rfl,named,_⟩ := authority_spelled split_ single authority
      exact spelled_accepted named seen refused
    have settled : Settled tables raw settings.toSettings ↔ Compared tables raw settings.toSettings host port :=
      ⟨fun s => s.compared host port seen,fun compared => ⟨accepted,fun _ _ again => by
        cases seen.symm.trans again
        exact compared⟩⟩
    rw [settled]
    cases read : origin.port with
    | error raised =>
      rw [read] at allowed
      constructor
      · rintro ⟨_,returned,_⟩
        cases allowed.symm.trans returned
      · rintro ⟨_,_,again,readable,_⟩
        cases split_.symm.trans again
        cases read.symm.trans readable
    | ok originPort =>
      rw [read] at allowed
      have compared : Compared tables raw settings.toSettings host port ↔
          (isAscii (fold tables host) = true ∧ isAscii (fold tables ((origin.hostname tables).getD [])) = true) ∧
            (fold tables host = fold tables ((origin.hostname tables).getD []) →
              (originPort ≠ some 0 → port.getD (defaultPort origin) = originPort.getD (defaultPort origin) →
                  Plain raw port) ∧
                (originPort = some 0 → port ≠ some (defaultPort origin) ∧ (port = some 0 → ¬ Plain raw port))) := by
        constructor
        · rintro ⟨_,_,again,readable,own,configured,agree⟩
          cases split_.symm.trans again
          cases read.symm.trans readable
          exact ⟨⟨own,configured⟩,agree⟩
        · rintro ⟨⟨own,configured⟩,agree⟩
          exact ⟨origin,originPort,split_,read,own,configured,agree⟩
      rw [compared]
      by_cases ascii : isAscii (fold tables host) = true ∧ isAscii (fold tables ((origin.hostname tables).getD [])) = true
      · simp only [compareDigest, ascii, Bool.and_self, if_true, Except.bind] at allowed
        simp only [Exact, allowed, Except.ok.injEq, exists_eq_left', Bool.and_eq_true, beq_iff_eq,
          isAuthority_observed split_ single read seen, ascii, true_and]
        by_cases same : fold tables host = fold tables ((origin.hostname tables).getD [])
        · simp only [same, true_and, true_implies]
          exact matches_exactly
        · simp [same]
      · have raises : compareDigest (fold tables host) (fold tables ((origin.hostname tables).getD [])) =
            .error .typeError := by
          rw [compareDigest, if_neg (by simpa using ascii)]
        rw [raises] at allowed
        constructor
        · rintro ⟨_,returned,_⟩
          cases allowed.symm.trans returned
        · rintro ⟨both,_⟩
          exact absurd both ascii

/-- For a host with a letter that is not ASCII, the comparison raises. -/
theorem foreign_letter_raises : ¬ ∀ (settings : ProductionSettings asciiTables) (raw : Text),
    Exact asciiTables raw settings.toSettings := by
  intro claim
  obtain ⟨allowed,returned,_⟩ := claim exampleSettings ['é']
  have raised : hostIsAllowed asciiTables (some ['é']) exampleSettings.toSettings = .error .typeError := by rfl
  cases raised.symm.trans returned

end DocGuard.HostNames
