import DocGuard.Domain
import DocGuard.JsonText
import DocGuard.Sha256

/-!
The identity of the PDF sanitizer on both sides: the trusted side derives a
fingerprint from its settings and sends it with the numbers in the JSON request of
the worker; the worker recomputes it from the numbers that it decodes.
-/
namespace DocGuard.Sanitizer
open DocGuard.Checks DocGuard.Contract DocGuard.Domain DocGuard.Json DocGuard.Ordered
open DocGuard.Sha256 (sha256)

/-! ### Floats -/

/-- The finite floats of Python: their exact values, `repr`, `float(text)`, and `repr(float(n))` for integers. The JSON
    text of a float is read as that float. -/
structure Floats where
  Float : Type
  value : Float → ℚ
  repr : Float → Text
  parse : Text → Float
  intRepr : Int → Text
  roundTrip : ∀ x, parse (repr x) = x
  token : ∀ x, FloatToken (fun token => repr (parse token)) (repr x)

variable (floats : Floats)

def Floats.reprToken (token : Text) : Text := floats.repr (floats.parse token)

/-! ### Constants -/

def PDF_CDR_VERSION : Text := lit "1.0.0"
def PDF_CDR_RENDERER : Text := lit "PyMuPDF"
def PDF_CDR_RENDERER_VERSION : Text := lit "1.28.2"
def PDF_CDR_ENGINE_VERSION : Text := lit "1.28.2"
def PDF_CDR_DPI : Nat := 150
def PDF_CDR_COLORSPACE : Text := lit "RGB"
def PDF_CDR_METADATA_POLICY : Text := lit "minimal-empty"
def PDF_CDR_OUTPUT_MODE : Text := lit "raster-images-only"

/-! ### The trusted side -/

/-- The fields of `Settings` that bound the sanitizer, with their declared constraints. -/
structure Settings where
  cdrMaxPages : Nat
  cdrMaxWidthPoints : floats.Float
  cdrMaxHeightPoints : floats.Float
  cdrMaxWidthPixels : Nat
  cdrMaxHeightPixels : Nat
  cdrMaxPixelsPerPage : Nat
  cdrMaxTotalPixels : Nat
  cdrMaxRasterBytes : Nat
  cdrMaxOutputBytes : Nat
  pages : 1 ≤ cdrMaxPages ∧ cdrMaxPages ≤ 1000
  widthPoints : 0 < floats.value cdrMaxWidthPoints ∧ floats.value cdrMaxWidthPoints ≤ 10000
  heightPoints : 0 < floats.value cdrMaxHeightPoints ∧ floats.value cdrMaxHeightPoints ≤ 10000
  widthPixels : 1 ≤ cdrMaxWidthPixels ∧ cdrMaxWidthPixels ≤ 20000
  heightPixels : 1 ≤ cdrMaxHeightPixels ∧ cdrMaxHeightPixels ≤ 20000
  pixelsPerPage : 1 ≤ cdrMaxPixelsPerPage ∧ cdrMaxPixelsPerPage ≤ 100000000
  totalPixels : 1 ≤ cdrMaxTotalPixels ∧ cdrMaxTotalPixels ≤ 1000000000
  rasterBytes : 1 ≤ cdrMaxRasterBytes ∧ cdrMaxRasterBytes ≤ 3000000000
  outputBytes : 1 ≤ cdrMaxOutputBytes ∧ cdrMaxOutputBytes ≤ 1000000000

variable {floats}

/-- `sanitizer_definition` -/
def sanitizerDefinition (s : Settings floats) : List (Text × Value) :=
  [(lit "colorspace",.str PDF_CDR_COLORSPACE),
   (lit "dpi",.int PDF_CDR_DPI),
   (lit "engine_version",.str PDF_CDR_ENGINE_VERSION),
   (lit "max_height_pixels",.int s.cdrMaxHeightPixels),
   (lit "max_height_points",.float (floats.repr s.cdrMaxHeightPoints)),
   (lit "max_output_bytes",.int s.cdrMaxOutputBytes),
   (lit "max_pages",.int s.cdrMaxPages),
   (lit "max_pixels_per_page",.int s.cdrMaxPixelsPerPage),
   (lit "max_raster_bytes",.int s.cdrMaxRasterBytes),
   (lit "max_total_pixels",.int s.cdrMaxTotalPixels),
   (lit "max_width_pixels",.int s.cdrMaxWidthPixels),
   (lit "max_width_points",.float (floats.repr s.cdrMaxWidthPoints)),
   (lit "metadata_policy",.str PDF_CDR_METADATA_POLICY),
   (lit "output_mode",.str PDF_CDR_OUTPUT_MODE),
   (lit "renderer",.str PDF_CDR_RENDERER),
   (lit "renderer_version",.str PDF_CDR_RENDERER_VERSION),
   (lit "sanitizer_version",.str PDF_CDR_VERSION)]

/-- The bytes that are hashed. -/
def payload (definition : List (Text × Value)) : List UInt8 := utf8 (dumps true (.obj definition))

/-- `sanitizer_fingerprint` -/
def sanitizerFingerprint (s : Settings floats) : Text := sha256 (payload (sanitizerDefinition s))

variable (floats)

structure PdfCdrRequestConfig where
  sanitizerVersion : Text
  sanitizerFingerprint : Text
  dpi : Nat
  maxPages : Nat
  maxWidthPoints : floats.Float
  maxHeightPoints : floats.Float
  maxWidthPixels : Nat
  maxHeightPixels : Nat
  maxPixelsPerPage : Nat
  maxTotalPixels : Nat
  maxRasterBytes : Nat
  maxOutputBytes : Nat

variable {floats}

/-- `Field(ge=low, le=high)` -/
def within (field : Text) (low high n : Nat) : Except ValidationError Unit :=
  require (low ≤ n ∧ n ≤ high) (.constraint field)

/-- `Field(gt=0, le=10_000)` -/
def pointsWithin (field : Text) (x : floats.Float) : Except ValidationError Unit :=
  require (0 < floats.value x ∧ floats.value x ≤ 10000) (.constraint field)

/-- The checks of `PdfCdrRequestConfig`. -/
def validateRequestConfig (c : PdfCdrRequestConfig floats) : Except ValidationError Unit := do
  require (lengthWithin 1 32 c.sanitizerVersion) (.constraint (lit "sanitizer_version"))
  require (c.sanitizerFingerprint.length = 64 ∧ c.sanitizerFingerprint.all lowerHex)
    (.constraint (lit "sanitizer_fingerprint"))
  within (lit "dpi") 72 300 c.dpi
  within (lit "max_pages") 1 1000 c.maxPages
  pointsWithin (lit "max_width_points") c.maxWidthPoints
  pointsWithin (lit "max_height_points") c.maxHeightPoints
  within (lit "max_width_pixels") 1 20000 c.maxWidthPixels
  within (lit "max_height_pixels") 1 20000 c.maxHeightPixels
  within (lit "max_pixels_per_page") 1 100000000 c.maxPixelsPerPage
  within (lit "max_total_pixels") 1 1000000000 c.maxTotalPixels
  within (lit "max_raster_bytes") 1 3000000000 c.maxRasterBytes
  within (lit "max_output_bytes") 1 1000000000 c.maxOutputBytes

/-- The fields that `build_worker_cdr_config` fills in. -/
def workerCdrConfig (s : Settings floats) : PdfCdrRequestConfig floats where
  sanitizerVersion := PDF_CDR_VERSION
  sanitizerFingerprint := sanitizerFingerprint s
  dpi := PDF_CDR_DPI
  maxPages := s.cdrMaxPages
  maxWidthPoints := s.cdrMaxWidthPoints
  maxHeightPoints := s.cdrMaxHeightPoints
  maxWidthPixels := s.cdrMaxWidthPixels
  maxHeightPixels := s.cdrMaxHeightPixels
  maxPixelsPerPage := s.cdrMaxPixelsPerPage
  maxTotalPixels := s.cdrMaxTotalPixels
  maxRasterBytes := s.cdrMaxRasterBytes
  maxOutputBytes := s.cdrMaxOutputBytes

/-- `build_worker_cdr_config` -/
def buildWorkerCdrConfig (s : Settings floats) : Except ValidationError (PdfCdrRequestConfig floats) := do
  validateRequestConfig (workerCdrConfig s)
  return workerCdrConfig s

/-- `config.model_dump(mode="json")` -/
def PdfCdrRequestConfig.dump (c : PdfCdrRequestConfig floats) : Value :=
  .obj [(lit "sanitizer_version",.str c.sanitizerVersion),
    (lit "sanitizer_fingerprint",.str c.sanitizerFingerprint),
    (lit "dpi",.int c.dpi),
    (lit "max_pages",.int c.maxPages),
    (lit "max_width_points",.float (floats.repr c.maxWidthPoints)),
    (lit "max_height_points",.float (floats.repr c.maxHeightPoints)),
    (lit "max_width_pixels",.int c.maxWidthPixels),
    (lit "max_height_pixels",.int c.maxHeightPixels),
    (lit "max_pixels_per_page",.int c.maxPixelsPerPage),
    (lit "max_total_pixels",.int c.maxTotalPixels),
    (lit "max_raster_bytes",.int c.maxRasterBytes),
    (lit "max_output_bytes",.int c.maxOutputBytes)]

inductive WorkerOperation where
  | ANALYZE
  | SANITIZE_PDF
deriving DecidableEq

def WorkerOperation.value : WorkerOperation → Text
  | .ANALYZE => lit "ANALYZE"
  | .SANITIZE_PDF => lit "SANITIZE_PDF"

variable (floats)

structure WorkerRequest where
  schemaVersion : Text := ANALYSIS_SCHEMA_VERSION
  jobId : Text
  samplePath : Text
  originalFilename : Text := lit "unnamed-document"
  claimedContentType : Option Text := none
  operation : WorkerOperation := .ANALYZE
  cdr : Option (PdfCdrRequestConfig floats) := none

variable {floats}

/-- `Path(text).is_absolute()` -/
def isAbsolute (path : Text) : Bool := Text.startsWith path ['/']

/-- The checks of `WorkerRequest`. -/
def validateRequest (r : WorkerRequest floats) : Except ValidationError Unit := do
  require (lengthWithin 16 128 r.jobId ∧ r.jobId.all lowerHex) (.constraint (lit "job_id"))
  require (lengthWithin 1 4096 r.samplePath) (.constraint (lit "sample_path"))
  require (r.originalFilename.length ≤ 255) (.constraint (lit "original_filename"))
  require (∀ t ∈ r.claimedContentType, t.length ≤ 255) (.constraint (lit "claimed_content_type"))
  require (r.schemaVersion = ANALYSIS_SCHEMA_VERSION)
    (.invalid (lit "unsupported schema version: " ++ r.schemaVersion))
  require (isAbsolute r.samplePath) (.invalid (lit "worker sample path must be absolute"))
  require (r.operation = .SANITIZE_PDF ↔ r.cdr.isSome)
    (.invalid (lit "SANITIZE_PDF requires CDR configuration and ANALYZE forbids it"))

/-- `request.model_dump(mode="json")` -/
def WorkerRequest.dump (r : WorkerRequest floats) : Value :=
  .obj [(lit "schema_version",.str r.schemaVersion),
    (lit "job_id",.str r.jobId),
    (lit "sample_path",.str r.samplePath),
    (lit "original_filename",.str r.originalFilename),
    (lit "claimed_content_type",(r.claimedContentType.map .str).getD .null),
    (lit "operation",.str r.operation.value),
    (lit "cdr",(r.cdr.map PdfCdrRequestConfig.dump).getD .null)]

/-- `request.to_json()` -/
def WorkerRequest.toJson (r : WorkerRequest floats) : Text := dumps false r.dump

/-! ### The worker -/

/-- A `ValueError` with its text. -/
structure WorkerError where
  message : Text
deriving DecidableEq

abbrev Config := List (Text × Value)

/-- `isinstance(sample_path, str)` and `Path(sample_path).is_absolute()` -/
def isAbsoluteText : Option Value → Bool
  | some (.str path) => isAbsolute path
  | _ => false

variable (floats)

/-- `_parse_request` -/
def parseRequest (raw : Text) : Except WorkerError Config :=
  match loads floats.reprToken raw with
  | none => .error ⟨lit "JSONDecodeError"⟩
  | some (.obj request) => do
    require (get request (lit "schema_version") = some (.str ANALYSIS_SCHEMA_VERSION)) ⟨lit "unsupported schema version"⟩
    require (isAbsoluteText (get request (lit "sample_path"))) ⟨lit "sample path must be absolute"⟩
    return request
  | some _ => .error ⟨lit "request must be an object"⟩

def _CONFIG_KEYS : List Text :=
  [lit "sanitizer_version",lit "sanitizer_fingerprint",lit "dpi",lit "max_pages",lit "max_width_points",
   lit "max_height_points",lit "max_width_pixels",lit "max_height_pixels",lit "max_pixels_per_page",
   lit "max_total_pixels",lit "max_raster_bytes",lit "max_output_bytes"]

/-- `_integer` -/
def integer (config : Config) (key : Text) : Except WorkerError Int :=
  match get config key with
  | some (.int n) => .ok n
  | _ => .error ⟨key ++ lit " must be an integer"⟩

/-- `_number`, by its `repr` -/
def number (config : Config) (key : Text) : Except WorkerError Text :=
  match get config key with
  | some (.int n) => .ok (floats.intRepr n)
  | some (.float text) => .ok text
  | _ => .error ⟨key ++ lit " must be numeric"⟩

/-- The definition that the worker assembles from the numbers of the request. -/
def workerDefinition (config : Config) : Except WorkerError (List (Text × Value)) := do
  let dpi ← integer config (lit "dpi")
  let maxHeightPixels ← integer config (lit "max_height_pixels")
  let maxHeightPoints ← number floats config (lit "max_height_points")
  let maxOutputBytes ← integer config (lit "max_output_bytes")
  let maxPages ← integer config (lit "max_pages")
  let maxPixelsPerPage ← integer config (lit "max_pixels_per_page")
  let maxRasterBytes ← integer config (lit "max_raster_bytes")
  let maxTotalPixels ← integer config (lit "max_total_pixels")
  let maxWidthPixels ← integer config (lit "max_width_pixels")
  let maxWidthPoints ← number floats config (lit "max_width_points")
  return [(lit "colorspace",.str PDF_CDR_COLORSPACE),
    (lit "dpi",.int dpi),
    (lit "engine_version",.str PDF_CDR_ENGINE_VERSION),
    (lit "max_height_pixels",.int maxHeightPixels),
    (lit "max_height_points",.float maxHeightPoints),
    (lit "max_output_bytes",.int maxOutputBytes),
    (lit "max_pages",.int maxPages),
    (lit "max_pixels_per_page",.int maxPixelsPerPage),
    (lit "max_raster_bytes",.int maxRasterBytes),
    (lit "max_total_pixels",.int maxTotalPixels),
    (lit "max_width_pixels",.int maxWidthPixels),
    (lit "max_width_points",.float maxWidthPoints),
    (lit "metadata_policy",.str PDF_CDR_METADATA_POLICY),
    (lit "output_mode",.str PDF_CDR_OUTPUT_MODE),
    (lit "renderer",.str PDF_CDR_RENDERER),
    (lit "renderer_version",.str PDF_CDR_RENDERER_VERSION),
    (lit "sanitizer_version",.str PDF_CDR_VERSION)]

/-- `_validated_config` -/
def validatedConfig (value : Option Value) : Except WorkerError Config :=
  match value with
  | some (.obj config) => do
    require (sortedSet (config.map Prod.fst) = sortedSet _CONFIG_KEYS) ⟨lit "invalid CDR configuration"⟩
    require (get config (lit "sanitizer_version") = some (.str PDF_CDR_VERSION)) ⟨lit "unsupported sanitizer version"⟩
    let definition ← workerDefinition floats config
    require (get config (lit "sanitizer_fingerprint") = some (.str (sha256 (payload definition))))
      ⟨lit "sanitizer fingerprint mismatch"⟩
    return config
  | _ => .error ⟨lit "invalid CDR configuration"⟩

/-- `main`, up to the configuration of the sanitizer -/
def acceptedConfig (raw : Text) : Except WorkerError Config := do
  let request ← parseRequest floats raw
  require (get request (lit "operation") = some (.str (lit "SANITIZE_PDF"))) ⟨lit "unsupported worker operation"⟩
  validatedConfig floats (get request (lit "cdr"))

/-! ### The digest -/

theorem hex4_lower (n : Nat) : (hex4 n).length = 4 ∧ (hex4 n).all lowerHex = true := by
  have digit : ∀ d < 16, lowerHex (Nat.digitChar d) = true := by decide
  refine ⟨rfl,?_⟩
  simp [hex4, digit _ (Nat.mod_lt _ (show 0 < 16 by decide))]

theorem hexDigest_lower (chain : Sha256.Chain) :
    (Sha256.hexDigest chain).length = 64 ∧ (Sha256.hexDigest chain).all lowerHex = true := by
  have word (n : Nat) : (Sha256.hexWord n).length = 8 ∧ (Sha256.hexWord n).all lowerHex = true := by
    rw [Sha256.hexWord, List.length_append, List.all_append, (hex4_lower _).1, (hex4_lower _).1, (hex4_lower _).2,
      (hex4_lower _).2]
    decide
  obtain ⟨a,b,c,d,e,f,g,h⟩ := chain
  simp [Sha256.hexDigest, (word _).1, (word _).2, -List.all_eq_true]

theorem sha256_lower (message : List UInt8) : (sha256 message).length = 64 ∧ (sha256 message).all lowerHex = true := by
  rw [sha256, Sha256.strictAll_eq]
  exact hexDigest_lower _

/-! ### What the worker decodes -/

variable {floats}

/-- The value of a key does not depend on the order of the fields. -/
theorem get_perm {first second : List (Text × Value)} (perm : first.Perm second) (distinct : (first.map Prod.fst).Nodup)
    (key : Text) : get first key = get second key := by
  have unique {fields : List (Text × Value)} (distinct : (fields.map Prod.fst).Nodup) (value : Value) :
      get fields key = some value ↔ (key,value) ∈ fields := by
    rw [Domain.get, Option.map_eq_some_iff]
    constructor
    · rintro ⟨⟨k,v⟩,found,rfl⟩
      have same : k = key := by simpa using List.find?_some found
      exact same ▸ List.mem_of_find?_eq_some found
    · intro member
      have isSome : (fields.find? fun f => f.1 == key).isSome := List.find?_isSome.mpr ⟨_,member,beq_self_eq_true key⟩
      obtain ⟨⟨k,v⟩,found⟩ := Option.isSome_iff_exists.mp isSome
      have same : k = key := by simpa using List.find?_some found
      subst same
      refine ⟨_,found,?_⟩
      exact congrArg Prod.snd (List.inj_on_of_nodup_map distinct (List.mem_of_find?_eq_some found) member rfl)
  apply Option.ext
  intro value
  rw [unique distinct, unique ((perm.map Prod.fst).nodup_iff.mp distinct), perm.mem_iff]

/-- What a key of an object has become after the text was read. -/
theorem get_canonical {fields : List (Text × Value)} (distinct : (fields.map Prod.fst).Nodup) (key : Text) :
    get (sortedBy Prod.fst (canonicalFields fields)) key = (get fields key).map Value.canonical := by
  have keys : ((sortedBy Prod.fst (canonicalFields fields)).map Prod.fst).Nodup := by
    rw [((sortedBy_perm Prod.fst _).map Prod.fst).nodup_iff, canonicalFields_keys]
    exact distinct
  rw [get_perm (sortedBy_perm Prod.fst _) keys, canonicalFields_map, Domain.get, Domain.get, List.find?_map, Option.map_map,
    Option.map_map]
  rfl

/-- The fields of the configuration in the order of the request. -/
def sentFields (c : PdfCdrRequestConfig floats) : Config :=
  match c.dump with
  | .obj fields => fields
  | _ => []

/-- The fields of the configuration as the worker decodes them. -/
def decodedFields (c : PdfCdrRequestConfig floats) : Config := sortedBy Prod.fst (canonicalFields (sentFields c))

theorem sentFields_keys (c : PdfCdrRequestConfig floats) : (sentFields c).map Prod.fst = _CONFIG_KEYS := rfl

theorem configKeys_nodup : _CONFIG_KEYS.Nodup := by decide +kernel

theorem decoded_get (c : PdfCdrRequestConfig floats) (key : Text) :
    get (decodedFields c) key = (get (sentFields c) key).map Value.canonical :=
  get_canonical (by rw [sentFields_keys]; exact configKeys_nodup) key

theorem decoded_fingerprint (c : PdfCdrRequestConfig floats) :
    get (decodedFields c) (lit "sanitizer_fingerprint") = some (.str c.sanitizerFingerprint) := by
  rw [decoded_get]
  rfl

theorem dump_plain (c : PdfCdrRequestConfig floats) : Plain floats.reprToken c.dump :=
  ⟨configKeys_nodup,trivial,trivial,trivial,trivial,floats.token c.maxWidthPoints,floats.token c.maxHeightPoints,trivial,
    trivial,trivial,trivial,trivial,trivial,trivial⟩

/-- The numbers that the worker decodes give the definition of the trusted side. -/
theorem workerDefinition_decoded (s : Settings floats) :
    workerDefinition floats (decodedFields (workerCdrConfig s)) = .ok (sanitizerDefinition s) := by
  simp only [workerDefinition, integer, number, decoded_get]
  rfl

theorem validatedConfig_decoded (s : Settings floats) :
    validatedConfig floats (some (.obj (decodedFields (workerCdrConfig s)))) = .ok (decodedFields (workerCdrConfig s)) := by
  have keys : sortedSet ((decodedFields (workerCdrConfig s)).map Prod.fst) = sortedSet _CONFIG_KEYS := by
    apply sortedSet_congr
    intro key
    rw [decodedFields, ((sortedBy_perm Prod.fst _).map Prod.fst).mem_iff, canonicalFields_keys, sentFields_keys]
  have version : get (decodedFields (workerCdrConfig s)) (lit "sanitizer_version") = some (.str PDF_CDR_VERSION) := by
    rw [decoded_get]
    rfl
  have fingerprint := decoded_fingerprint (workerCdrConfig s)
  simp only [workerCdrConfig, sanitizerFingerprint] at fingerprint
  rw [validatedConfig]
  refine require_bind_ok.mpr ⟨keys,require_bind_ok.mpr ⟨version,?_⟩⟩
  exact bind_ok.mpr ⟨_,workerDefinition_decoded s,require_bind_ok.mpr ⟨fingerprint,rfl⟩⟩

/-- The fields of a request in the order of the model. -/
def requestFields (r : WorkerRequest floats) : List (Text × Value) :=
  match r.dump with
  | .obj fields => fields
  | _ => []

/-- The keys of a request. -/
def requestKeys : List Text :=
  [lit "schema_version",lit "job_id",lit "sample_path",lit "original_filename",lit "claimed_content_type",lit "operation",
   lit "cdr"]

theorem requestKeys_nodup : requestKeys.Nodup := by decide

theorem requestFields_distinct (r : WorkerRequest floats) : ((requestFields r).map Prod.fst).Nodup := requestKeys_nodup

theorem request_plain (r : WorkerRequest floats) : Plain floats.reprToken r.dump := by
  have claimed : Plain floats.reprToken ((r.claimedContentType.map .str).getD .null) := by
    cases r.claimedContentType with
    | none => trivial
    | some _ => trivial
  have cdr : Plain floats.reprToken ((r.cdr.map PdfCdrRequestConfig.dump).getD .null) := by
    cases r.cdr with
    | none => trivial
    | some c => exact dump_plain c
  exact ⟨requestFields_distinct r,trivial,trivial,trivial,trivial,claimed,trivial,cdr,trivial⟩

/-- A checked request that asks for a sanitizer is accepted with the configuration that the settings define. -/
theorem acceptedConfig_sent {s : Settings floats} {r : WorkerRequest floats} (valid : validateRequest r = .ok ())
    (asked : r.operation = .SANITIZE_PDF) (sent : r.cdr = some (workerCdrConfig s)) :
    acceptedConfig floats r.toJson = .ok (decodedFields (workerCdrConfig s)) := by
  simp only [validateRequest, require_bind_ok, require_ok] at valid
  obtain ⟨_,_,_,_,schema,absolute,_⟩ := valid
  have loaded : loads floats.reprToken r.toJson = some (.obj (sortedBy Prod.fst (canonicalFields (requestFields r)))) :=
    loads_plain (request_plain r)
  have at_ (key : Text) := get_canonical (requestFields_distinct r) key
  have schemaVersion : get (requestFields r) (lit "schema_version") = some (.str r.schemaVersion) := rfl
  have samplePath : get (requestFields r) (lit "sample_path") = some (.str r.samplePath) := rfl
  have operation : get (requestFields r) (lit "operation") = some (.str r.operation.value) := rfl
  have cdr : get (requestFields r) (lit "cdr") = some ((r.cdr.map PdfCdrRequestConfig.dump).getD .null) := rfl
  have parsed : parseRequest floats r.toJson = .ok (sortedBy Prod.fst (canonicalFields (requestFields r))) := by
    rw [parseRequest, loaded]
    refine require_bind_ok.mpr ⟨?_,require_bind_ok.mpr ⟨?_,rfl⟩⟩
    · rw [at_, schemaVersion, schema]
      rfl
    · rw [at_, samplePath]
      exact absolute
  rw [acceptedConfig]
  refine bind_ok.mpr ⟨_,parsed,require_bind_ok.mpr ⟨?_,?_⟩⟩
  · rw [at_, operation, asked]
    rfl
  · rw [at_, cdr, sent]
    exact validatedConfig_decoded s

/-! ### The two sides agree -/

/-- Two settings have the same bounds. -/
structure SameBounds (s t : Settings floats) : Prop where
  pages : s.cdrMaxPages = t.cdrMaxPages
  widthPoints : s.cdrMaxWidthPoints = t.cdrMaxWidthPoints
  heightPoints : s.cdrMaxHeightPoints = t.cdrMaxHeightPoints
  widthPixels : s.cdrMaxWidthPixels = t.cdrMaxWidthPixels
  heightPixels : s.cdrMaxHeightPixels = t.cdrMaxHeightPixels
  pixelsPerPage : s.cdrMaxPixelsPerPage = t.cdrMaxPixelsPerPage
  totalPixels : s.cdrMaxTotalPixels = t.cdrMaxTotalPixels
  rasterBytes : s.cdrMaxRasterBytes = t.cdrMaxRasterBytes
  outputBytes : s.cdrMaxOutputBytes = t.cdrMaxOutputBytes

/-- The keys of a definition. -/
def definitionKeys : List Text :=
  [lit "colorspace",lit "dpi",lit "engine_version",lit "max_height_pixels",lit "max_height_points",
   lit "max_output_bytes",lit "max_pages",lit "max_pixels_per_page",lit "max_raster_bytes",lit "max_total_pixels",
   lit "max_width_pixels",lit "max_width_points",lit "metadata_policy",lit "output_mode",lit "renderer",
   lit "renderer_version",lit "sanitizer_version"]

theorem definitionKeys_nodup : definitionKeys.Nodup := by decide +kernel

theorem definition_keys (s : Settings floats) : (sanitizerDefinition s).map Prod.fst = definitionKeys := rfl

theorem definition_distinct (s : Settings floats) : ((sanitizerDefinition s).map Prod.fst).Nodup := by
  rw [definition_keys]
  exact definitionKeys_nodup

theorem definition_plain (s : Settings floats) : Plain floats.reprToken (.obj (sanitizerDefinition s)) :=
  ⟨definition_distinct s,trivial,trivial,trivial,trivial,floats.token s.cdrMaxHeightPoints,trivial,trivial,trivial,trivial,
    trivial,trivial,floats.token s.cdrMaxWidthPoints,trivial,trivial,trivial,trivial,trivial,trivial⟩

theorem repr_injective {x y : floats.Float} (same : floats.repr x = floats.repr y) : x = y := by
  rw [← floats.roundTrip x, same, floats.roundTrip]

/-- The bytes that are hashed determine each bound. -/
theorem payload_get {s t : Settings floats} (same : payload (sanitizerDefinition s) = payload (sanitizerDefinition t))
    (key : Text) :
    (get (sanitizerDefinition s) key).map Value.canonical = (get (sanitizerDefinition t) key).map Value.canonical := by
  have first : loads floats.reprToken (dumps true (.obj (sanitizerDefinition s))) = _ := loads_plain (definition_plain s)
  have second : loads floats.reprToken (dumps true (.obj (sanitizerDefinition t))) = _ := loads_plain (definition_plain t)
  rw [utf8_injective same, second] at first
  have fields : sortedBy Prod.fst (canonicalFields (sanitizerDefinition t)) =
      sortedBy Prod.fst (canonicalFields (sanitizerDefinition s)) := Value.obj.inj (Option.some.inj first)
  rw [← get_canonical (definition_distinct s), ← get_canonical (definition_distinct t), fields]

theorem payload_sameBounds {s t : Settings floats} (same : payload (sanitizerDefinition s) = payload (sanitizerDefinition t)) :
    SameBounds s t := by
  have int (key : Text) {n m : Nat} (first : get (sanitizerDefinition s) key = some (.int n))
      (second : get (sanitizerDefinition t) key = some (.int m)) : n = m := by
    have both := payload_get same key
    rw [first, second] at both
    exact Int.ofNat.inj (Value.int.inj (Option.some.inj both))
  have float (key : Text) {x y : floats.Float} (first : get (sanitizerDefinition s) key = some (.float (floats.repr x)))
      (second : get (sanitizerDefinition t) key = some (.float (floats.repr y))) : x = y := by
    have both := payload_get same key
    rw [first, second] at both
    exact repr_injective (Value.float.inj (Option.some.inj both))
  exact {
    pages := int (lit "max_pages") rfl rfl
    widthPoints := float (lit "max_width_points") rfl rfl
    heightPoints := float (lit "max_height_points") rfl rfl
    widthPixels := int (lit "max_width_pixels") rfl rfl
    heightPixels := int (lit "max_height_pixels") rfl rfl
    pixelsPerPage := int (lit "max_pixels_per_page") rfl rfl
    totalPixels := int (lit "max_total_pixels") rfl rfl
    rasterBytes := int (lit "max_raster_bytes") rfl rfl
    outputBytes := int (lit "max_output_bytes") rfl rfl }

/-- Settings that validate give a configuration that validates. -/
theorem buildWorkerCdrConfig_ok (s : Settings floats) : buildWorkerCdrConfig s = .ok (workerCdrConfig s) := by
  have fingerprint : (sanitizerFingerprint s).length = 64 ∧ (sanitizerFingerprint s).all lowerHex = true := sha256_lower _
  refine bind_ok.mpr ⟨(),?_,rfl⟩
  simp only [validateRequestConfig, within, pointsWithin, require_bind_ok, require_ok]
  simp only [workerCdrConfig]
  exact ⟨show lengthWithin 1 32 PDF_CDR_VERSION by decide,fingerprint,show 72 ≤ PDF_CDR_DPI ∧ PDF_CDR_DPI ≤ 300 by decide,
    s.pages,s.widthPoints,s.heightPoints,s.widthPixels,s.heightPixels,s.pixelsPerPage,s.totalPixels,s.rasterBytes,
    s.outputBytes⟩

/-- The worker accepts the configuration of any settings and recomputes their fingerprint, and a fingerprint stands for
    one choice of bounds, as far as the digest tells the hashed texts apart. -/
theorem sanitizer_identity (floats : Floats) :
    (∀ s : Settings floats, buildWorkerCdrConfig s = .ok (workerCdrConfig s) ∧
      ∀ r : WorkerRequest floats, validateRequest r = .ok () → r.operation = .SANITIZE_PDF →
        r.cdr = some (workerCdrConfig s) →
        ∃ config definition, acceptedConfig floats r.toJson = .ok config ∧
          workerDefinition floats config = .ok definition ∧ sha256 (payload definition) = sanitizerFingerprint s) ∧
    (∀ s t : Settings floats,
      (sha256 (payload (sanitizerDefinition s)) = sha256 (payload (sanitizerDefinition t)) →
        payload (sanitizerDefinition s) = payload (sanitizerDefinition t)) →
      sanitizerFingerprint s = sanitizerFingerprint t → SameBounds s t) := by
  constructor
  · intro s
    refine ⟨buildWorkerCdrConfig_ok s,?_⟩
    intro r valid asked sent
    exact ⟨decodedFields (workerCdrConfig s),sanitizerDefinition s,acceptedConfig_sent valid asked sent,
      workerDefinition_decoded s,rfl⟩
  · intro s t injective same
    exact payload_sameBounds (injective same)

/-! ### Whole floats -/

theorem toDigits_isDigit (n : Nat) : ∀ c ∈ Nat.toDigits 10 n, c.isDigit = true :=
  fun _ => Nat.isDigit_of_mem_toDigits (by decide) (by decide)

theorem stops_point (rest : Text) : Stops ('.' :: rest) := by
  intro c head
  cases head
  decide

/-- The floats `0.0`, `1.0`, `2.0` and so on. -/
def wholeFloats : Floats where
  Float := Nat
  value n := n
  repr n := Nat.toDigits 10 n ++ lit ".0"
  parse token := Nat.ofDigitChars 10 (digits token) 0
  intRepr n := intText n ++ lit ".0"
  roundTrip n := by
    rw [show lit ".0" = ['.','0'] from rfl, digits_append (toDigits_isDigit n) (stops_point _),
      Nat.ofDigitChars_ten_toDigits]
  token n := by
    intro rest ends
    have some := Nat.toDigits_ne_nil (n := n) (b := 10)
    have single : ∀ c ∈ ['0'], c.isDigit = true := fun c member => List.mem_singleton.mp member ▸ rfl
    have zero : digits ('0' :: rest) = ['0'] := digits_append single ends.stops
    have point : fraction ('.' :: '0' :: rest) = ['.','0'] := by
      simp [fraction, zero]
    have text : Nat.toDigits 10 n ++ lit ".0" ++ rest = Nat.toDigits 10 n ++ '.' :: '0' :: rest := by
      simp [lit]
    have token : digits (Nat.toDigits 10 n ++ ['.','0']) = Nat.toDigits 10 n :=
      digits_append (toDigits_isDigit n) (stops_point _)
    simp only [text, readNumber, if_neg (toDigits_no_sign n _), List.length_nil, List.drop_zero,
      whole_toDigits (stops_point _), List.drop_left, point, List.length_cons, List.drop_succ_cons, exponent_ends ends,
      if_neg some, List.append_nil, List.nil_append, token, Nat.ofDigitChars_ten_toDigits, reduceCtorEq, false_and,
      if_false]

/-- The settings that hold without configuration. -/
def defaultSettings : Settings wholeFloats where
  cdrMaxPages := 100
  cdrMaxWidthPoints := (2000 : Nat)
  cdrMaxHeightPoints := (2000 : Nat)
  cdrMaxWidthPixels := 4200
  cdrMaxHeightPixels := 4200
  cdrMaxPixelsPerPage := 16000000
  cdrMaxTotalPixels := 80000000
  cdrMaxRasterBytes := 240000000
  cdrMaxOutputBytes := 67108864
  pages := by decide
  widthPoints := by
    show (0 : ℚ) < (2000 : Nat) ∧ ((2000 : Nat) : ℚ) ≤ 10000
    norm_num
  heightPoints := by
    show (0 : ℚ) < (2000 : Nat) ∧ ((2000 : Nat) : ℚ) ≤ 10000
    norm_num
  widthPixels := by decide
  heightPixels := by decide
  pixelsPerPage := by decide
  totalPixels := by decide
  rasterBytes := by decide
  outputBytes := by decide

/-- A request for the sanitizer. -/
def sampleRequest : WorkerRequest wholeFloats where
  jobId := List.replicate 32 'a'
  samplePath := lit "/input/sample"
  operation := .SANITIZE_PDF
  cdr := some (workerCdrConfig defaultSettings)

theorem sanitizer_identity_default :
    (∃ config definition, acceptedConfig wholeFloats sampleRequest.toJson = .ok config ∧
      workerDefinition wholeFloats config = .ok definition ∧
      sha256 (payload definition) = sanitizerFingerprint defaultSettings) ∧
    SameBounds defaultSettings defaultSettings :=
  have identity := sanitizer_identity wholeFloats
  ⟨(identity.1 defaultSettings).2 sampleRequest rfl rfl rfl,identity.2 defaultSettings defaultSettings (fun _ => rfl) rfl⟩

end DocGuard.Sanitizer
