import DocGuard.Doubles
import DocGuard.Orchestrator
import DocGuard.Sanitizer

/-!
The renderer that runs in the worker, with a library that may fail at every call,
and how the trusted side reads its report. Each report says how the rendering ended
and how far it came.
-/
namespace DocGuard.CdrWorker
open DocGuard.Checks DocGuard.Contract DocGuard.Domain DocGuard.Doubles DocGuard.Json DocGuard.Orchestrator DocGuard.Ordered
open DocGuard.Sanitizer
open DocGuard.Sha256 (sha256)

/-! ### The report -/

/-- The dictionary that `_result` builds. -/
structure Report where
  status : Text
  sanitizerFingerprint : Text
  rendererVersion : Text
  engineVersion : Text
  pageCount : Int
  totalPixels : Int
  outputBytes : Int
  durationMs : Int
  failureCode : Option Text

def Report.fields (r : Report) : List (Text × Value) :=
  [(lit "schema_version",.str ANALYSIS_SCHEMA_VERSION),
   (lit "operation",.str (lit "SANITIZE_PDF")),
   (lit "status",.str r.status),
   (lit "sanitizer_version",.str PDF_CDR_VERSION),
   (lit "sanitizer_fingerprint",.str r.sanitizerFingerprint),
   (lit "renderer_version",.str r.rendererVersion),
   (lit "engine_version",.str r.engineVersion),
   (lit "page_count",.int r.pageCount),
   (lit "total_pixels",.int r.totalPixels),
   (lit "output_bytes",.int r.outputBytes),
   (lit "duration_ms",.int r.durationMs),
   (lit "failure_code",(r.failureCode.map .str).getD .null)]

/-- What `main` writes to `stdout`. -/
def Report.stdout (r : Report) : Text := dumps false (.obj r.fields)

/-! ### The library -/

/-- What a call of the library or of the system raises: one of `OSError`, `RuntimeError`, `ValueError`, `FileDataError`
    and `FzErrorBase`, or something else. -/
inductive Raised where
  | handled
  | other
deriving DecidableEq

/-- A page of the source: its size in points, if finite, its pixels at some resolution, and its place in the output. -/
structure Page where
  rect : Except Raised (Option ℚ × Option ℚ)
  pixmap : Int → Except Raised (Int × Int)
  place : Except Raised Unit

structure Source where
  needsPass : Bool
  pages : List Page
  close : Except Raised Unit

/-- A chunk of the new document: its length, and what writing it gives. -/
structure Chunk where
  read : Except Raised Nat
  write : Except Raised Unit

/-- What the calls of a rendering give. The names of the versions are not empty and short. -/
structure Environment where
  outputIsFile : Bool
  source : Except Raised Source
  newOutput : Except Raised Unit
  save : Except Raised Unit
  closeOutput : Except Raised Unit
  reconstructedSize : Except Raised Nat
  openFiles : Except Raised Unit
  chunks : List Chunk
  flush : Except Raised Unit
  outputSize : Option Nat
  startedNs : Int
  endedNs : Int
  versionBind : Text
  versionFitz : Text
  versionBindLength : lengthWithin 1 64 versionBind
  versionFitzLength : lengthWithin 1 64 versionFitz

/-- `ControlledCdrFailure`, or what the library raises. -/
inductive Failure where
  | controlled (code : Text)
  | raised (raised : Raised)
deriving DecidableEq

def library {α : Type} (call : Except Raised α) : Except Failure α := call.mapError .raised

/-! ### The limits -/

/-- The numbers of a configuration, with the exact values of the floats. -/
structure Limits where
  dpi : Int
  maxPages : Int
  maxWidthPoints : ℚ
  maxHeightPoints : ℚ
  maxWidthPixels : Int
  maxHeightPixels : Int
  maxPixelsPerPage : Int
  maxTotalPixels : Int
  maxRasterBytes : Int
  maxOutputBytes : Int

variable (floats : Floats)

/-- `_number` -/
def numberValue (config : Config) (key : Text) : Except WorkerError ℚ := do
  let text ← number floats config key
  return floats.value (floats.parse text)

/-- What `_integer` and `_number` read from a configuration during a rendering. -/
def limits (config : Config) : Except WorkerError Limits := do
  let dpi ← integer config (lit "dpi")
  let maxPages ← integer config (lit "max_pages")
  let maxWidthPoints ← numberValue floats config (lit "max_width_points")
  let maxHeightPoints ← numberValue floats config (lit "max_height_points")
  let maxWidthPixels ← integer config (lit "max_width_pixels")
  let maxHeightPixels ← integer config (lit "max_height_pixels")
  let maxPixelsPerPage ← integer config (lit "max_pixels_per_page")
  let maxTotalPixels ← integer config (lit "max_total_pixels")
  let maxRasterBytes ← integer config (lit "max_raster_bytes")
  let maxOutputBytes ← integer config (lit "max_output_bytes")
  return ⟨dpi,maxPages,maxWidthPoints,maxHeightPoints,maxWidthPixels,maxHeightPixels,maxPixelsPerPage,maxTotalPixels,
    maxRasterBytes,maxOutputBytes⟩

/-! ### Pages -/

/-- `math.ceil(points * dpi / 72)`, unless it overflows -/
def ceilPixels (points : ℚ) (dpi : Int) : Option Int := do
  let factor ← toDouble dpi
  let product ← toDouble (points * factor)
  let quotient ← toDouble (product / 72)
  return ⌈quotient⌉

/-- The size of a page in points is within the limits. -/
def PointsWithin (l : Limits) (width height : ℚ) : Prop :=
  0 < width ∧ 0 < height ∧ width ≤ l.maxWidthPoints ∧ height ≤ l.maxHeightPoints

instance (l : Limits) (width height : ℚ) : Decidable (PointsWithin l width height) := by
  unfold PointsWithin; infer_instance

/-- The pixels of a page, and of all pages with it, are within the limits. -/
structure PixelsWithin (l : Limits) (width height total : Int) : Prop where
  widthPixels : width ≤ l.maxWidthPixels
  heightPixels : height ≤ l.maxHeightPixels
  pagePixels : width * height ≤ l.maxPixelsPerPage
  totalPixels : total ≤ l.maxTotalPixels
  rasterBytes : total * 3 ≤ l.maxRasterBytes

instance (l : Limits) (width height total : Int) : Decidable (PixelsWithin l width height total) :=
  decidable_of_iff (width ≤ l.maxWidthPixels ∧ height ≤ l.maxHeightPixels ∧ width * height ≤ l.maxPixelsPerPage ∧
    total ≤ l.maxTotalPixels ∧ total * 3 ≤ l.maxRasterBytes)
    ⟨fun ⟨a,b,c,d,e⟩ => ⟨a,b,c,d,e⟩,fun ⟨a,b,c,d,e⟩ => ⟨a,b,c,d,e⟩⟩

/-- The size of a page in pixels. -/
def pixelSize (l : Limits) (page : Page) : Except Failure (Int × Int) := do
  match ← library page.rect with
  | (some width,some height) =>
    require (PointsWithin l width height) (.controlled (lit "pixel_limit"))
    match ceilPixels width l.dpi,ceilPixels height l.dpi with
    | some width,some height => return (width,height)
    | _,_ => throw (.raised .other)  -- `OverflowError`
  | _ => throw (.controlled (lit "pixel_limit"))

/-- Renders a page of checked size into the output. -/
def rasterize (l : Limits) (page : Page) {width height total : Int} (_within : PixelsWithin l width height total) :
    Except Failure Unit := do
  let pixmap ← library (page.pixmap l.dpi)
  require (¬ (pixmap ≠ (width,height) ∧ (l.maxWidthPixels < pixmap.1 ∨ l.maxHeightPixels < pixmap.2)))
    (.controlled (lit "pixel_limit"))
  library page.place

/-- The pages in order, with the pixels counted so far. -/
def renderPages (l : Limits) : List Page → Int → Except Failure Unit × Int
  | [],total => (.ok (),total)
  | page :: rest,total =>
    match pixelSize l page with
    | .error failure => (.error failure,total)
    | .ok (width,height) =>
      let total := total + width * height
      if within : PixelsWithin l width height total then
        match rasterize l page within with
        | .error failure => (.error failure,total)
        | .ok () => renderPages l rest total
      else (.error (.controlled (lit "pixel_limit")),total)

/-! ### The rendering -/

/-- `finally: close()` -/
def closing {α : Type} (close : Except Raised Unit) (body : Except Failure α) : Except Failure α :=
  match close with
  | .ok () => body
  | .error raised => .error (.raised raised)

/-- The new document, with the pixels of its pages. -/
def reconstruct (l : Limits) (env : Environment) (pages : List Page) : Except Failure Unit × Int :=
  match env.newOutput with
  | .error raised => (.error (.raised raised),0)
  | .ok () =>
    let (rendered,total) := renderPages l pages 0
    (closing env.closeOutput (rendered >>= fun _ => library env.save),total)

/-- The document that is opened, with `page_count` and `total_pixels`. -/
def renderSource (l : Limits) (env : Environment) (source : Source) : Except Failure Unit × Nat × Int :=
  if source.needsPass then (closing source.close (.error (.controlled (lit "encrypted"))),0,0)
  else if source.pages.length < 1 ∨ l.maxPages < source.pages.length then
    (closing source.close (.error (.controlled (lit "page_limit"))),source.pages.length,0)
  else
    let (rendered,total) := reconstruct l env source.pages
    (closing source.close rendered,source.pages.length,total)

def render (l : Limits) (env : Environment) : Except Failure Unit × Nat × Int :=
  if env.outputIsFile then
    match env.source with
    | .error raised => (.error (.raised raised),0,0)
    | .ok source => renderSource l env source
  else (.error (.controlled (lit "render_failed")),0,0)

/-- The chunks that are copied, by their lengths, with the number of bytes so far. -/
def copyChunks (l : Limits) : List Chunk → Nat → Except Failure Nat
  | [],copied => .ok copied
  | chunk :: rest,copied => do
    let length ← library chunk.read
    require (¬ l.maxOutputBytes < (copied + length : Nat)) (.controlled (lit "output_limit"))
    library chunk.write
    copyChunks l rest (copied + length)

/-- The copy of the new document, by its size. -/
def handOver (l : Limits) (env : Environment) : Except Failure Nat := do
  let outputBytes ← library env.reconstructedSize
  require (¬ (outputBytes < 1 ∨ l.maxOutputBytes < outputBytes)) (.controlled (lit "output_limit"))
  library env.openFiles
  let copied ← copyChunks l env.chunks 0
  library env.flush
  require (copied = outputBytes) (.controlled (lit "render_failed"))
  return outputBytes

/-- `_bounded_output_size` -/
def boundedOutputSize (l : Limits) (env : Environment) : Int :=
  match env.outputSize with
  | none => 0
  | some size => min size l.maxOutputBytes

/-- `_result` -/
def report (env : Environment) (fingerprint status : Text) (pageCount : Nat) (totalPixels outputBytes : Int)
    (failureCode : Option Text) : Report where
  status := status
  sanitizerFingerprint := fingerprint
  rendererVersion := env.versionBind
  engineVersion := env.versionFitz
  pageCount := pageCount
  totalPixels := totalPixels
  outputBytes := outputBytes
  durationMs := max 0 ((env.endedNs - env.startedNs) / 1000000)
  failureCode := failureCode

/-- The report of a rendering, unless an error escapes. -/
def reported (l : Limits) (env : Environment) (fingerprint : Text) : Except Raised Report :=
  let (rendered,pageCount,totalPixels) := render l env
  match rendered >>= fun _ => handOver l env with
  | .ok outputBytes => .ok (report env fingerprint (lit "SUCCESS") pageCount totalPixels outputBytes none)
  | .error (.controlled code) =>
    .ok (report env fingerprint (lit "FAILED") pageCount totalPixels (boundedOutputSize l env) (some code))
  | .error (.raised .handled) =>
    .ok (report env fingerprint (lit "FAILED") pageCount totalPixels (boundedOutputSize l env) (some (lit "malformed")))
  | .error (.raised .other) => .error .other

/-- The fingerprint of a checked configuration. -/
def fingerprintOf (config : Config) : Text :=
  match get config (lit "sanitizer_fingerprint") with
  | some (.str fingerprint) => fingerprint
  | _ => []

/-- How `sanitize_pdf` raises. -/
inductive Escaped where
  | rejected (error : WorkerError)
  | raised (raised : Raised)
deriving DecidableEq

/-- `sanitize_pdf`, for `request.get("cdr")` -/
def sanitizePdf (cdr : Option Value) (env : Environment) : Except Escaped Report := do
  let config ← (validatedConfig floats cdr).mapError .rejected
  let l ← (limits floats config).mapError .rejected
  (reported l env (fingerprintOf config)).mapError .raised

/-! ### The trusted side -/

def cdrStatuses : List CdrStatus := [.SUCCESS,.FAILED]

def statusValue : CdrStatus → Text
  | .SUCCESS => lit "SUCCESS"
  | .FAILED => lit "FAILED"

def cdrFailureCodes : List CdrFailureCode :=
  [.INELIGIBLE,.RENDERER_UNAVAILABLE,.RENDER_FAILED,.RENDER_TIMEOUT,.OUTPUT_LIMIT,.OUTPUT_INVALID,.PAGE_LIMIT,.PIXEL_LIMIT,
   .ENCRYPTED,.MALFORMED,.DERIVED_ANALYSIS_REJECTED,.HASH_MISMATCH,.STORAGE_FAILURE,.DATABASE_FAILURE,.AUDIT_FAILURE,
   .PROMOTION_FAILURE]

def textField (fields : List (Text × Value)) (key : Text) : Except ValidationError Text :=
  match get fields key with
  | some (.str text) => .ok text
  | _ => .error (.constraint key)

def intField (fields : List (Text × Value)) (key : Text) : Except ValidationError Int :=
  match get fields key with
  | some (.int n) => .ok n
  | _ => .error (.constraint key)

/-- A member of an enumeration, by its value. -/
def enumField {α : Type} (members : List α) (value : α → Text) (key text : Text) : Except ValidationError α :=
  match members.find? fun member => value member = text with
  | some member => .ok member
  | none => .error (.constraint key)

def failureField (fields : List (Text × Value)) : Except ValidationError (Option CdrFailureCode) :=
  match get fields (lit "failure_code") with
  | none | some .null => .ok none
  | some (.str text) => (enumField cdrFailureCodes CdrFailureCode.value (lit "failure_code") text).map some
  | some _ => .error (.constraint (lit "failure_code"))

def resultKeys : List Text :=
  [lit "schema_version",lit "operation",lit "status",lit "sanitizer_version",lit "sanitizer_fingerprint",
   lit "renderer_version",lit "engine_version",lit "page_count",lit "total_pixels",lit "output_bytes",lit "duration_ms",
   lit "failure_code"]

/-- The fields of a `PdfCdrResult`. -/
def decodeResult (fields : List (Text × Value)) : Except ValidationError PdfCdrFields := do
  require (∀ f ∈ fields, f.1 ∈ resultKeys) (.invalid (lit "extra_forbidden"))
  let schemaVersion ← textField fields (lit "schema_version")
  let operation ← textField fields (lit "operation")
  let statusText ← textField fields (lit "status")
  let status ← enumField cdrStatuses statusValue (lit "status") statusText
  let sanitizerVersion ← textField fields (lit "sanitizer_version")
  let sanitizerFingerprint ← textField fields (lit "sanitizer_fingerprint")
  let rendererVersion ← textField fields (lit "renderer_version")
  let engineVersion ← textField fields (lit "engine_version")
  let pageCount ← intField fields (lit "page_count")
  let totalPixels ← intField fields (lit "total_pixels")
  let outputBytes ← intField fields (lit "output_bytes")
  let durationMs ← intField fields (lit "duration_ms")
  let failureCode ← failureField fields
  return ⟨schemaVersion,operation,status,sanitizerVersion,sanitizerFingerprint,rendererVersion,engineVersion,pageCount,
    totalPixels,outputBytes,durationMs,failureCode⟩

/-- A result whose checks pass. -/
def checkedResult (fields : PdfCdrFields) : Except ValidationError PdfCdrResult :=
  match valid : validatePdfCdr fields with
  | .ok () => .ok ⟨fields,valid⟩
  | .error e => .error e

/-- `PdfCdrResult.model_validate_json` -/
def validateResult (text : Text) : Except ValidationError PdfCdrResult :=
  match loads floats.reprToken text with
  | some (.obj fields) => do
    let fields ← decodeResult fields
    checkedResult fields
  | _ => .error (.invalid (lit "json_invalid"))

/-- The end of a worker that nothing interrupted: an error that escapes gives another exit code. -/
def execution (exitCode : Int) : Except Escaped Report → Execution PdfCdrResult
  | .ok r => .ended false false 0 (validateResult floats r.stdout)
  | .error _ => .ended false false exitCode (validateResult floats [])

/-! ### The limits of an accepted configuration -/

variable {floats}

/-- What an accepted configuration has passed. -/
theorem validatedConfig_cases {cdr : Option Value} {config : Config} (accepted : validatedConfig floats cdr = .ok config) :
    ∃ definition, workerDefinition floats config = .ok definition ∧
      get config (lit "sanitizer_fingerprint") = some (.str (sha256 (payload definition))) := by
  unfold validatedConfig at accepted
  split at accepted
  · obtain ⟨_,accepted⟩ := require_bind_ok.mp accepted
    obtain ⟨_,accepted⟩ := require_bind_ok.mp accepted
    obtain ⟨definition,assembled,accepted⟩ := bind_ok.mp accepted
    obtain ⟨fingerprint,same⟩ := require_bind_ok.mp accepted
    cases same
    exact ⟨definition,assembled,fingerprint⟩
  · cases accepted

/-- No number of an accepted configuration is missing. -/
theorem limits_accepted {cdr : Option Value} {config : Config} (accepted : validatedConfig floats cdr = .ok config) :
    ∃ l, limits floats config = .ok l := by
  obtain ⟨definition,assembled,_⟩ := validatedConfig_cases accepted
  simp only [workerDefinition, bind_ok] at assembled
  obtain ⟨dpi,hasDpi,maxHeightPixels,hasHeightPixels,maxHeightPoints,hasHeightPoints,maxOutputBytes,hasOutputBytes,maxPages,
    hasPages,maxPixelsPerPage,hasPixelsPerPage,maxRasterBytes,hasRasterBytes,maxTotalPixels,hasTotalPixels,maxWidthPixels,
    hasWidthPixels,maxWidthPoints,hasWidthPoints,_⟩ := assembled
  simp only [limits, numberValue, hasDpi, hasHeightPixels, hasHeightPoints, hasOutputBytes, hasPages, hasPixelsPerPage,
    hasRasterBytes, hasTotalPixels, hasWidthPixels, hasWidthPoints]
  exact ⟨_,rfl⟩

theorem fingerprint_lower {cdr : Option Value} {config : Config} (accepted : validatedConfig floats cdr = .ok config) :
    (fingerprintOf config).length = 64 ∧ (fingerprintOf config).all lowerHex = true := by
  obtain ⟨definition,_,fingerprint⟩ := validatedConfig_cases accepted
  rw [fingerprintOf, fingerprint]
  exact sha256_lower _

/-! ### Pages that are rendered -/

/-- The pixels that a page adds to the sum. -/
def pagePixels (l : Limits) (page : Page) : Int :=
  match pixelSize l page with
  | .ok (width,height) => width * height
  | .error _ => 0

/-- The sum of the pixels of the first pages. -/
def pixelsOf (l : Limits) (pages : List Page) (count : Nat) : Int := ((pages.take count).map (pagePixels l)).sum

/-- A page with which the sum stays within the limits, and which the library renders. -/
def Renders (l : Limits) (page : Page) (total : Int) : Prop :=
  ∃ width height, pixelSize l page = .ok (width,height) ∧
    ∃ within : PixelsWithin l width height total, rasterize l page within = .ok ()

/-- The first pages are rendered, after pages with a sum. -/
def RenderedFrom (l : Limits) (pages : List Page) (total : Int) (count : Nat) : Prop :=
  ∀ i < count, ∃ page, pages[i]? = some page ∧ Renders l page (total + pixelsOf l pages (i + 1))

theorem ceilPixels_sign {points : ℚ} {dpi pixels : Int} (positive : 0 < points) (rounded : ceilPixels points dpi = some pixels) :
    (0 ≤ dpi → 0 ≤ pixels) ∧ (dpi ≤ 0 → pixels ≤ 0) := by
  simp only [ceilPixels, Option.bind_eq_bind, Option.bind_eq_some_iff, Option.pure_def, Option.some.injEq] at rounded
  obtain ⟨factor,toFactor,product,toProduct,quotient,toQuotient,rfl⟩ := rounded
  constructor
  · intro nonneg
    have factor := toDouble_nonneg (Int.cast_nonneg nonneg) toFactor
    have product := toDouble_nonneg (mul_nonneg positive.le factor) toProduct
    have quotient := toDouble_nonneg (div_nonneg product (by norm_num)) toQuotient
    exact Int.ceil_nonneg quotient
  · intro nonpos
    have factor := toDouble_nonpos (Int.cast_nonpos.mpr nonpos) toFactor
    have product := toDouble_nonpos (mul_nonpos_of_nonneg_of_nonpos positive.le factor) toProduct
    have quotient := toDouble_nonpos (div_nonpos_of_nonpos_of_nonneg product (by norm_num)) toQuotient
    exact Int.ceil_le.mpr (by simpa using quotient)

/-- A page with a size in pixels has a checked size in points. -/
theorem pixelSize_cases {l : Limits} {page : Page} {width height : Int} (sized : pixelSize l page = .ok (width,height)) :
    ∃ x y, page.rect = .ok (some x,some y) ∧ PointsWithin l x y ∧ ceilPixels x l.dpi = some width ∧
      ceilPixels y l.dpi = some height := by
  obtain ⟨size,called,sized⟩ := bind_ok.mp sized
  rw [library, mapError_ok] at called
  split at sized
  · rename_i _ x y
    obtain ⟨within,sized⟩ := require_bind_ok.mp sized
    split at sized
    · rename_i toWidth toHeight
      cases sized
      exact ⟨x,y,called,within,toWidth,toHeight⟩
    · cases sized
  · cases sized

theorem pagePixels_nonneg (l : Limits) (page : Page) : 0 ≤ pagePixels l page := by
  unfold pagePixels
  split
  · rename_i width height sized
    obtain ⟨x,y,_,⟨positiveX,positiveY,_⟩,toWidth,toHeight⟩ := pixelSize_cases sized
    have signWidth := ceilPixels_sign positiveX toWidth
    have signHeight := ceilPixels_sign positiveY toHeight
    rcases Int.le_total 0 l.dpi with nonneg | nonpos
    · exact mul_nonneg (signWidth.1 nonneg) (signHeight.1 nonneg)
    · exact mul_nonneg_of_nonpos_of_nonpos (signWidth.2 nonpos) (signHeight.2 nonpos)
  · exact Int.le_refl 0

theorem pixelsOf_cons (l : Limits) (page : Page) (rest : List Page) (count : Nat) :
    pixelsOf l (page :: rest) (count + 1) = pagePixels l page + pixelsOf l rest count := by
  simp [pixelsOf]

theorem pixelsOf_zero (l : Limits) (pages : List Page) : pixelsOf l pages 0 = 0 := by
  simp [pixelsOf]

theorem pixelsOf_mono (l : Limits) (pages : List Page) {first second : Nat} (le : first ≤ second) :
    pixelsOf l pages first ≤ pixelsOf l pages second := by
  induction pages generalizing first second with
  | nil => simp [pixelsOf]
  | cons page rest ih =>
    cases second with
    | zero => rw [Nat.le_zero.mp le]
    | succ second =>
      have added := pagePixels_nonneg l page
      cases first with
      | zero =>
        have later := ih (Nat.zero_le second)
        rw [pixelsOf_zero] at later
        rw [pixelsOf_zero, pixelsOf_cons]
        omega
      | succ first =>
        have later := ih (Nat.le_of_succ_le_succ le)
        rw [pixelsOf_cons, pixelsOf_cons]
        omega

theorem renderedFrom_zero (l : Limits) (pages : List Page) (total : Int) : RenderedFrom l pages total 0 := nofun

theorem renderedFrom_cons {l : Limits} {page : Page} {rest : List Page} {total : Int} {count : Nat} :
    RenderedFrom l (page :: rest) total (count + 1) ↔
      Renders l page (total + pagePixels l page) ∧ RenderedFrom l rest (total + pagePixels l page) count := by
  constructor
  · intro rendered
    constructor
    · obtain ⟨page',at_,renders⟩ := rendered 0 (Nat.succ_pos _)
      cases Option.some.inj at_
      rwa [pixelsOf_cons, pixelsOf_zero, Int.add_zero] at renders
    · intro i less
      obtain ⟨page',at_,renders⟩ := rendered (i + 1) (Nat.succ_lt_succ less)
      rw [pixelsOf_cons, ← Int.add_assoc] at renders
      exact ⟨page',at_,renders⟩
  · rintro ⟨first,later⟩ i less
    cases i with
    | zero =>
      refine ⟨page,rfl,?_⟩
      rw [pixelsOf_cons, pixelsOf_zero, Int.add_zero]
      exact first
    | succ i =>
      obtain ⟨page',at_,renders⟩ := later i (Nat.lt_of_succ_lt_succ less)
      refine ⟨page',at_,?_⟩
      rw [pixelsOf_cons, ← Int.add_assoc]
      exact renders

theorem renderedFrom_length {l : Limits} {pages : List Page} {total : Int} {count : Nat}
    (rendered : RenderedFrom l pages total count) : count ≤ pages.length := by
  apply Nat.le_of_not_lt
  intro more
  obtain ⟨page,at_,_⟩ := rendered pages.length more
  rw [List.getElem?_length] at at_
  cases at_

/-- How a loop over pages ends: with all of them, or at a page that is not rendered but counted. -/
structure Stopped (l : Limits) (pages : List Page) (total : Int) (run : Except Failure Unit × Int) (stop : Nat) : Prop where
  rendered : RenderedFrom l pages total stop
  sum : run.2 = total + pixelsOf l pages (stop + 1)
  last : ∀ count, RenderedFrom l pages total count → count ≤ stop
  ends : run.1 = .ok () ↔ stop = pages.length

/-- A page that is not rendered stops the loop. -/
theorem stopped_first {l : Limits} {page : Page} {rest : List Page} {total : Int} {failure : Failure}
    (fails : ¬ Renders l page (total + pagePixels l page)) :
    Stopped l (page :: rest) total (.error failure,total + pagePixels l page) 0 where
  rendered := renderedFrom_zero _ _ _
  sum := by rw [pixelsOf_cons, pixelsOf_zero, Int.add_zero]
  last count rendered := by
    cases count with
    | zero => exact Nat.le_refl 0
    | succ count => exact absurd (renderedFrom_cons.mp rendered).1 fails
  ends := by simp

theorem Stopped.cons {l : Limits} {page : Page} {rest : List Page} {total : Int} {run : Except Failure Unit × Int} {stop : Nat}
    (renders : Renders l page (total + pagePixels l page)) (later : Stopped l rest (total + pagePixels l page) run stop) :
    Stopped l (page :: rest) total run (stop + 1) where
  rendered := renderedFrom_cons.mpr ⟨renders,later.rendered⟩
  sum := by rw [later.sum, pixelsOf_cons, Int.add_assoc]
  last count rendered := by
    cases count with
    | zero => exact Nat.zero_le _
    | succ count => exact Nat.succ_le_succ (later.last count (renderedFrom_cons.mp rendered).2)
  ends := by simp [later.ends]

theorem renderPages_stopped (l : Limits) (pages : List Page) (total : Int) :
    ∃ stop, Stopped l pages total (renderPages l pages total) stop := by
  induction pages generalizing total with
  | nil =>
    refine ⟨0,renderedFrom_zero _ _ _,?_,fun _ => renderedFrom_length,by simp [renderPages]⟩
    simp [renderPages, pixelsOf]
  | cons page rest ih =>
    unfold renderPages
    split
    · rename_i failure unsized
      have none : pagePixels l page = 0 := by rw [pagePixels, unsized]
      have fails : ¬ Renders l page (total + pagePixels l page) := by
        rintro ⟨width,height,sized,_⟩
        rw [unsized] at sized
        cases sized
      have stopped : Stopped l (page :: rest) total (.error failure,total + pagePixels l page) 0 := stopped_first fails
      rw [none, Int.add_zero] at stopped
      exact ⟨0,stopped⟩
    · rename_i width height sized
      have added : pagePixels l page = width * height := by rw [pagePixels, sized]
      have renders_iff : Renders l page (total + pagePixels l page) ↔
          ∃ within : PixelsWithin l width height (total + width * height), rasterize l page within = .ok () := by
        constructor
        · rintro ⟨width',height',sized',within,renders⟩
          rw [sized] at sized'
          cases sized'
          rw [added] at within
          exact ⟨within,renders⟩
        · rintro ⟨within,renders⟩
          rw [added]
          exact ⟨width,height,sized,within,renders⟩
      rw [← added] at renders_iff ⊢
      dsimp only
      split
      · rename_i within
        split
        · rename_i failure failed
          refine ⟨0,stopped_first fun renders => ?_⟩
          obtain ⟨_,renders⟩ := renders_iff.mp renders
          rw [failed] at renders
          cases renders
        · rename_i renders
          obtain ⟨stop,later⟩ := ih (total + pagePixels l page)
          exact ⟨stop + 1,later.cons (renders_iff.mpr ⟨within,renders⟩)⟩
      · rename_i beyond
        exact ⟨0,stopped_first fun renders => beyond (renders_iff.mp renders).1⟩

/-! ### Codes -/

/-- The codes with which a rendering fails are known to the trusted side. -/
def Known {α : Type} (body : Except Failure α) : Prop :=
  ∀ code, body = .error (.controlled code) → ∃ known : CdrFailureCode, known.value = code

theorem known_ok {α : Type} (a : α) : Known (.ok a : Except Failure α) := nofun

theorem known_raised {α : Type} (raised : Raised) : Known (.error (.raised raised) : Except Failure α) := nofun

theorem known_error {α : Type} (known : CdrFailureCode) : Known (.error (.controlled known.value) : Except Failure α) := by
  intro code failed
  cases failed
  exact ⟨known,rfl⟩

theorem known_library {α : Type} (call : Except Raised α) : Known (library call) := by
  cases call with
  | ok a => exact known_ok a
  | error raised => exact known_raised raised

theorem known_require (condition : Prop) [Decidable condition] (known : CdrFailureCode) :
    Known (require condition (.controlled known.value) : Except Failure PUnit) := by
  unfold require
  split
  · exact known_ok _
  · exact known_error known

theorem Known.bind {α β : Type} {body : Except Failure α} {next : α → Except Failure β} (first : Known body)
    (later : ∀ a, Known (next a)) : Known (body >>= next) := by
  intro code failed
  rcases bind_error.mp failed with failed | ⟨a,_,failed⟩
  · exact first code failed
  · exact later a code failed

theorem Known.closing {α : Type} {body : Except Failure α} (known : Known body) (close : Except Raised Unit) :
    Known (closing close body) := by
  cases close with
  | ok _ => exact known
  | error raised => exact known_raised raised

theorem known_pixelSize (l : Limits) (page : Page) : Known (pixelSize l page) := by
  refine (known_library _).bind fun size => ?_
  split
  · refine (known_require _ .PIXEL_LIMIT).bind fun _ => ?_
    split
    · exact known_ok _
    · exact known_raised .other
  · exact known_error .PIXEL_LIMIT

theorem known_rasterize (l : Limits) (page : Page) {width height total : Int} (within : PixelsWithin l width height total) :
    Known (rasterize l page within) :=
  (known_library _).bind fun _ => (known_require _ .PIXEL_LIMIT).bind fun _ => known_library _

theorem known_renderPages (l : Limits) (pages : List Page) (total : Int) : Known (renderPages l pages total).1 := by
  induction pages generalizing total with
  | nil => exact known_ok _
  | cons page rest ih =>
    have size := known_pixelSize l page
    unfold renderPages
    split
    · rename_i failure unsized
      rw [unsized] at size
      exact fun code failed => size code (by simpa using failed)
    · dsimp only
      split
      · rename_i within
        have known := known_rasterize l page within
        split
        · rename_i failure failed
          rw [failed] at known
          exact fun code failed => known code (by simpa using failed)
        · exact ih _
      · exact known_error .PIXEL_LIMIT

theorem known_render (l : Limits) (env : Environment) : Known (render l env).1 := by
  unfold render renderSource reconstruct
  split
  · split
    · exact known_raised _
    · split
      · exact (known_error .ENCRYPTED).closing _
      · split
        · exact (known_error .PAGE_LIMIT).closing _
        · apply Known.closing
          split
          · exact known_raised _
          · exact ((known_renderPages _ _ _).bind fun _ => known_library _).closing _
  · exact known_error .RENDER_FAILED

theorem known_copyChunks (l : Limits) (chunks : List Chunk) (copied : Nat) : Known (copyChunks l chunks copied) := by
  induction chunks generalizing copied with
  | nil => exact known_ok _
  | cons chunk rest ih =>
    exact (known_library _).bind fun _ => (known_require _ .OUTPUT_LIMIT).bind fun _ =>
      (known_library _).bind fun _ => ih _

theorem known_handOver (l : Limits) (env : Environment) : Known (handOver l env) :=
  (known_library _).bind fun _ => (known_require _ .OUTPUT_LIMIT).bind fun _ => (known_library _).bind fun _ =>
    (known_copyChunks _ _ _).bind fun _ => (known_library _).bind fun _ => (known_require _ .RENDER_FAILED).bind fun _ =>
      known_ok _

/-! ### Renderings that complete -/

/-- The document that is rendered, unless it has no pages or too many. -/
structure Opened (env : Environment) (source : Source) : Prop where
  isFile : env.outputIsFile = true
  opened : env.source = .ok source
  plain : source.needsPass = false

def Chunk.length (chunk : Chunk) : Nat :=
  match chunk.read with
  | .ok length => length
  | .error _ => 0

/-- The chunk is read and written. -/
def Chunk.Copied (chunk : Chunk) : Prop := chunk.read = .ok chunk.length ∧ chunk.write = .ok ()

/-- The whole document is rendered and saved. -/
structure Rendered (l : Limits) (env : Environment) (source : Source) : Prop where
  opened : Opened env source
  count : 1 ≤ source.pages.length ∧ source.pages.length ≤ l.maxPages
  newOutput : env.newOutput = .ok ()
  pages : RenderedFrom l source.pages 0 source.pages.length
  saved : env.save = .ok ()
  closedOutput : env.closeOutput = .ok ()
  closed : source.close = .ok ()

/-- The new document has a size within the limit and is copied. -/
structure HandedOver (l : Limits) (env : Environment) (size : Nat) : Prop where
  stat : env.reconstructedSize = .ok size
  positive : 1 ≤ size
  within : size ≤ l.maxOutputBytes
  openFiles : env.openFiles = .ok ()
  copied : ∀ chunk ∈ env.chunks, chunk.Copied
  all : (env.chunks.map Chunk.length).sum = size
  flush : env.flush = .ok ()

/-- The rendering succeeds, with a document of a size. -/
def Completes (l : Limits) (env : Environment) (size : Nat) : Prop := (∃ source, Rendered l env source) ∧ HandedOver l env size

theorem library_ok {α : Type} {call : Except Raised α} {a : α} : library call = .ok a ↔ call = .ok a := mapError_ok

theorem closing_ok {α : Type} {close : Except Raised Unit} {body : Except Failure α} {a : α} :
    closing close body = .ok a ↔ close = .ok () ∧ body = .ok a := by
  cases close <;> simp [closing]

theorem copyChunks_ok {l : Limits} {chunks : List Chunk} {copied n : Nat} (within : copied ≤ l.maxOutputBytes) :
    copyChunks l chunks copied = .ok n ↔
      (∀ chunk ∈ chunks, chunk.Copied) ∧ n = copied + (chunks.map Chunk.length).sum ∧ n ≤ l.maxOutputBytes := by
  induction chunks generalizing copied with
  | nil =>
    simp only [copyChunks, Except.ok.injEq, List.not_mem_nil, false_imp_iff, implies_true, List.map_nil, List.sum_nil,
      Nat.add_zero, true_and]
    constructor
    · rintro rfl
      exact ⟨rfl,within⟩
    · rintro ⟨rfl,_⟩
      rfl
  | cons chunk rest ih =>
    rw [copyChunks, List.forall_mem_cons, List.map_cons, List.sum_cons]
    constructor
    · intro run
      obtain ⟨length,read,run⟩ := bind_ok.mp run
      obtain ⟨below,run⟩ := require_bind_ok.mp run
      obtain ⟨⟨⟩,written,later⟩ := bind_ok.mp run
      rw [library_ok] at read written
      have same : chunk.length = length := by rw [Chunk.length, read]
      obtain ⟨copied',sum,bound⟩ := (ih (by omega)).mp later
      exact ⟨⟨⟨same ▸ read,written⟩,copied'⟩,by omega,bound⟩
    · rintro ⟨⟨⟨read,written⟩,copied'⟩,sum,bound⟩
      have below : ((copied + chunk.length : Nat) : Int) ≤ l.maxOutputBytes := by omega
      have later := (ih below).mpr ⟨copied',by omega,bound⟩
      exact bind_ok.mpr ⟨_,library_ok.mpr read,require_bind_ok.mpr ⟨by omega,
        bind_ok.mpr ⟨(),library_ok.mpr written,later⟩⟩⟩

theorem handOver_ok {l : Limits} {env : Environment} {size : Nat} :
    handOver l env = .ok size ↔ HandedOver l env size := by
  rw [handOver]
  constructor
  · intro run
    obtain ⟨outputBytes,stat,run⟩ := bind_ok.mp run
    obtain ⟨bounds,run⟩ := require_bind_ok.mp run
    obtain ⟨⟨⟩,openFiles,run⟩ := bind_ok.mp run
    obtain ⟨copied,copy,run⟩ := bind_ok.mp run
    obtain ⟨⟨⟩,flush,run⟩ := bind_ok.mp run
    obtain ⟨same,done⟩ := require_bind_ok.mp run
    cases done
    have bounds : 1 ≤ size ∧ (size : Int) ≤ l.maxOutputBytes := by omega
    obtain ⟨each,sum,_⟩ := (copyChunks_ok (by omega)).mp copy
    exact ⟨library_ok.mp stat,bounds.1,bounds.2,library_ok.mp openFiles,each,by omega,library_ok.mp flush⟩
  · rintro ⟨stat,positive,within,openFiles,copied,all,flush⟩
    have copy : copyChunks l env.chunks 0 = .ok size := (copyChunks_ok (by omega)).mpr ⟨copied,by omega,within⟩
    refine bind_ok.mpr ⟨size,library_ok.mpr stat,require_bind_ok.mpr ⟨by omega,?_⟩⟩
    refine bind_ok.mpr ⟨(),library_ok.mpr openFiles,bind_ok.mpr ⟨size,copy,?_⟩⟩
    exact bind_ok.mpr ⟨(),library_ok.mpr flush,require_bind_ok.mpr ⟨rfl,rfl⟩⟩

theorem Opened.unique {env : Environment} {first second : Source} (opened : Opened env first)
    (opened' : Opened env second) : first = second := by
  have same := opened'.opened
  rw [opened.opened] at same
  exact Except.ok.inj same

/-- A document that opens is rendered from its first page. -/
theorem render_opened {l : Limits} {env : Environment} {source : Source} (opened : Opened env source) :
    render l env = renderSource l env source ∧ (render l env).2.1 = source.pages.length := by
  have same : render l env = renderSource l env source := by
    simp [render, opened.isFile, opened.opened]
  refine ⟨same,?_⟩
  rw [same, renderSource, if_neg (by simp [opened.plain])]
  split
  · rfl
  · rfl

/-- Without a document that opens, nothing is counted. -/
theorem render_unopened {l : Limits} {env : Environment} (unopened : ∀ source, ¬ Opened env source) :
    (render l env).2 = (0,0) ∧ (render l env).1 ≠ .ok () := by
  unfold render
  split
  · rename_i isFile
    split
    · exact ⟨rfl,by simp⟩
    · rename_i source opened
      have locked : source.needsPass = true := by
        by_contra plain
        exact unopened source ⟨isFile,opened,by simpa using plain⟩
      rw [renderSource, if_pos locked]
      refine ⟨rfl,?_⟩
      rw [Ne, closing_ok]
      simp
  · exact ⟨rfl,by simp⟩

theorem render_ok {l : Limits} {env : Environment} : (render l env).1 = .ok () ↔ ∃ source, Rendered l env source := by
  by_cases found : ∃ source, Opened env source
  · obtain ⟨source,opened⟩ := found
    rw [(render_opened opened).1, renderSource, if_neg (by simp [opened.plain])]
    split
    · rename_i outside
      constructor
      · intro run
        cases (closing_ok.mp run).2
      · rintro ⟨source',rendered⟩
        cases opened.unique rendered.opened
        have count := rendered.count
        omega
    · rename_i inside
      dsimp only
      rw [closing_ok, reconstruct]
      obtain ⟨stop,stopped⟩ := renderPages_stopped l source.pages 0
      constructor
      · rintro ⟨closed,run⟩
        split at run
        · cases run
        · rename_i newOutput
          obtain ⟨closedOutput,run⟩ := closing_ok.mp run
          obtain ⟨⟨⟩,pages,saved⟩ := bind_ok.mp run
          have all := stopped.ends.mp pages
          exact ⟨source,opened,by omega,newOutput,all ▸ stopped.rendered,library_ok.mp saved,closedOutput,closed⟩
      · rintro ⟨source',rendered⟩
        cases opened.unique rendered.opened
        have all : stop = source.pages.length :=
          Nat.le_antisymm (renderedFrom_length stopped.rendered) (stopped.last _ rendered.pages)
        refine ⟨rendered.closed,?_⟩
        simp only [rendered.newOutput]
        exact closing_ok.mpr ⟨rendered.closedOutput,
          bind_ok.mpr ⟨(),stopped.ends.mpr all,library_ok.mpr rendered.saved⟩⟩
  · have unopened : ∀ source, ¬ Opened env source := fun source opened => found ⟨source,opened⟩
    constructor
    · intro run
      exact absurd run (render_unopened unopened).2
    · rintro ⟨source,rendered⟩
      exact absurd rendered.opened (unopened source)

theorem completes_iff {l : Limits} {env : Environment} {size : Nat} :
    ((render l env).1 >>= fun _ => handOver l env) = .ok size ↔ Completes l env size := by
  rw [bind_ok, Completes, ← render_ok, ← handOver_ok]
  constructor
  · rintro ⟨⟨⟩,rendered,handed⟩
    exact ⟨rendered,handed⟩
  · rintro ⟨rendered,handed⟩
    exact ⟨(),rendered,handed⟩

/-! ### Reports in the ranges of the trusted side -/

/-- When the numbers of a report are in the ranges of the trusted side: a document that opens has at most a thousand
    pages, the pixels up to the first page that is not rendered are at most 10^9, and so are the bytes of the
    output, within a limit that is not negative. -/
structure Reportable (l : Limits) (env : Environment) : Prop where
  pages : ∀ source, Opened env source → source.pages.length ≤ 1000
  pixels : ∀ source, Opened env source → source.pages.length ≤ l.maxPages → env.newOutput = .ok () →
    ∀ count, RenderedFrom l source.pages 0 count → pixelsOf l source.pages (count + 1) ≤ 1000000000
  success : ∀ size, Completes l env size → size ≤ 1000000000
  failure : (∀ size, ¬ Completes l env size) → ∀ size ∈ env.outputSize,
    0 ≤ l.maxOutputBytes ∧ (size ≤ 1000000000 ∨ l.maxOutputBytes ≤ 1000000000)

/-- The pixels that are counted. -/
theorem render_pixels (l : Limits) (env : Environment) :
    0 ≤ (render l env).2.2 ∧
      ((render l env).2.2 ≤ 1000000000 ↔ ∀ source, Opened env source → source.pages.length ≤ l.maxPages →
        env.newOutput = .ok () → ∀ count, RenderedFrom l source.pages 0 count →
          pixelsOf l source.pages (count + 1) ≤ 1000000000) := by
  have zero : (0 : Int) ≤ 1000000000 := by decide
  by_cases found : ∃ source, Opened env source
  · obtain ⟨source,opened⟩ := found
    rw [(render_opened opened).1, renderSource, if_neg (by simp [opened.plain])]
    split
    · rename_i outside
      refine ⟨Int.le_refl 0,fun _ => ?_,fun _ => zero⟩
      intro source' opened' count _ rendered within
      cases opened.unique opened'
      have empty : source.pages = [] := List.eq_nil_of_length_eq_zero (by omega)
      simp [empty, pixelsOf]
    · rename_i inside
      dsimp only
      rw [reconstruct]
      obtain ⟨stop,stopped⟩ := renderPages_stopped l source.pages 0
      split
      · rename_i failed
        refine ⟨Int.le_refl 0,fun _ => ?_,fun _ => zero⟩
        intro source' _ _ newOutput
        rw [failed] at newOutput
        cases newOutput
      · rename_i newOutput
        dsimp only
        have sum := stopped.sum
        have nonneg := pixelsOf_mono l source.pages (Nat.zero_le (stop + 1))
        rw [pixelsOf_zero] at nonneg
        rw [Int.zero_add] at sum
        rw [sum]
        refine ⟨nonneg,fun bounded => ?_,fun each => each source opened (by omega) newOutput stop stopped.rendered⟩
        intro source' opened' _ _ count rendered
        cases opened.unique opened'
        exact Int.le_trans (pixelsOf_mono l source.pages (Nat.succ_le_succ (stopped.last count rendered))) bounded
  · have unopened : ∀ source, ¬ Opened env source := fun source opened => found ⟨source,opened⟩
    rw [(render_unopened unopened).1]
    refine ⟨Int.le_refl 0,fun _ => ?_,fun _ => by decide⟩
    intro source opened
    exact absurd opened (unopened source)

theorem render_pageCount (l : Limits) (env : Environment) :
    (render l env).2.1 ≤ 1000 ↔ ∀ source, Opened env source → source.pages.length ≤ 1000 := by
  constructor
  · intro bounded source opened
    rwa [(render_opened opened).2] at bounded
  · intro each
    by_cases found : ∃ source, Opened env source
    · obtain ⟨source,opened⟩ := found
      rw [(render_opened opened).2]
      exact each source opened
    · rw [(render_unopened fun source opened => found ⟨source,opened⟩).1]
      decide

/-- What a report says: a rendering that completes, or a known failure of one that does not. -/
theorem reported_cases {l : Limits} {env : Environment} {fingerprint : Text} {r : Report}
    (returned : reported l env fingerprint = .ok r) :
    ∃ (status : CdrStatus) (code : Option CdrFailureCode) (outputBytes : Int),
      r = report env fingerprint (statusValue status) (render l env).2.1 (render l env).2.2 outputBytes
        (code.map CdrFailureCode.value) ∧
      ((∃ size, Completes l env size ∧ status = .SUCCESS ∧ code = none ∧ outputBytes = size) ∨
        ((∀ size, ¬ Completes l env size) ∧ status = .FAILED ∧ code ≠ none ∧ outputBytes = boundedOutputSize l env)) := by
  have known : Known ((render l env).1 >>= fun _ => handOver l env) :=
    (known_render l env).bind fun _ => known_handOver l env
  have fails {failure : Failure} (failed : ((render l env).1 >>= fun _ => handOver l env) = .error failure) (size : Nat) :
      ¬ Completes l env size := by
    rw [← completes_iff, failed]
    nofun
  unfold reported at returned
  dsimp only at returned
  split at returned
  · rename_i size done
    cases returned
    exact ⟨.SUCCESS,none,size,rfl,.inl ⟨size,completes_iff.mp done,rfl,rfl,rfl⟩⟩
  · rename_i text failed
    cases returned
    obtain ⟨code,rfl⟩ := known text failed
    exact ⟨.FAILED,some code,_,rfl,.inr ⟨fails failed,rfl,nofun,rfl⟩⟩
  · rename_i failed
    cases returned
    exact ⟨.FAILED,some .MALFORMED,_,rfl,.inr ⟨fails failed,rfl,nofun,rfl⟩⟩
  · cases returned

theorem resultKeys_nodup : resultKeys.Nodup := by decide +kernel

theorem report_keys (r : Report) : r.fields.map Prod.fst = resultKeys := rfl

theorem report_distinct (r : Report) : (r.fields.map Prod.fst).Nodup := by
  rw [report_keys]
  exact resultKeys_nodup

theorem report_plain (floatRepr : Text → Text) (r : Report) : Plain floatRepr (.obj r.fields) := by
  have code : Plain floatRepr ((r.failureCode.map .str).getD .null) := by
    cases r.failureCode with
    | none => trivial
    | some _ => trivial
  exact ⟨report_distinct r,trivial,trivial,trivial,trivial,trivial,trivial,trivial,trivial,trivial,trivial,trivial,code,
    trivial⟩

theorem enumField_status (key : Text) (status : CdrStatus) :
    enumField cdrStatuses statusValue key (statusValue status) = .ok status := by
  cases status <;> rfl

theorem enumField_code (key : Text) (code : CdrFailureCode) :
    enumField cdrFailureCodes CdrFailureCode.value key code.value = .ok code := by
  cases code <;> rfl

/-- The report as the fields that the trusted side checks. -/
def reportFields (env : Environment) (fingerprint : Text) (status : CdrStatus) (pageCount : Nat) (totalPixels outputBytes : Int)
    (code : Option CdrFailureCode) : PdfCdrFields where
  schemaVersion := ANALYSIS_SCHEMA_VERSION
  operation := lit "SANITIZE_PDF"
  status := status
  sanitizerVersion := PDF_CDR_VERSION
  sanitizerFingerprint := fingerprint
  rendererVersion := env.versionBind
  engineVersion := env.versionFitz
  pageCount := pageCount
  totalPixels := totalPixels
  outputBytes := outputBytes
  durationMs := max 0 ((env.endedNs - env.startedNs) / 1000000)
  failureCode := code

/-- The report is decoded as it was meant. -/
theorem validateResult_report (floats : Floats) (env : Environment) (fingerprint : Text) (status : CdrStatus) (pageCount : Nat)
    (totalPixels outputBytes : Int) (code : Option CdrFailureCode) :
    validateResult floats (report env fingerprint (statusValue status) pageCount totalPixels outputBytes
      (code.map CdrFailureCode.value)).stdout =
      checkedResult (reportFields env fingerprint status pageCount totalPixels outputBytes code) := by
  generalize sent : report env fingerprint (statusValue status) pageCount totalPixels outputBytes
    (code.map CdrFailureCode.value) = r
  have loaded : loads floats.reprToken r.stdout = some (.obj (sortedBy Prod.fst (canonicalFields r.fields))) :=
    loads_plain (report_plain _ r)
  have at_ (key : Text) := get_canonical (report_distinct r) key
  have keys : ∀ f ∈ sortedBy Prod.fst (canonicalFields r.fields), f.1 ∈ resultKeys := by
    intro f member
    rw [← report_keys r, ← canonicalFields_keys]
    exact List.mem_map_of_mem (mem_sortedBy.mp member)
  have failure : failureField (sortedBy Prod.fst (canonicalFields r.fields)) = .ok code := by
    rw [failureField, at_]
    subst sent
    cases code with
    | none => rfl
    | some code =>
      show (enumField cdrFailureCodes CdrFailureCode.value _ code.value).map some = _
      rw [enumField_code]
      rfl
  have decoded : decodeResult (sortedBy Prod.fst (canonicalFields r.fields)) =
      .ok (reportFields env fingerprint status pageCount totalPixels outputBytes code) := by
    rw [decodeResult]
    refine require_bind_ok.mpr ⟨keys,?_⟩
    simp only [failure, textField, intField, at_]
    subst sent
    refine bind_ok.mpr ⟨_,rfl,bind_ok.mpr ⟨_,rfl,bind_ok.mpr ⟨statusValue status,rfl,?_⟩⟩⟩
    exact bind_ok.mpr ⟨status,enumField_status _ status,rfl⟩
  rw [validateResult, loaded]
  dsimp only
  rw [decoded]
  rfl

/-- The ranges in which the trusted side accepts a report. -/
theorem reportFields_valid {env : Environment} {fingerprint : Text} {status : CdrStatus} {pageCount : Nat}
    {totalPixels outputBytes : Int} {code : Option CdrFailureCode}
    (lower : fingerprint.length = 64 ∧ fingerprint.all lowerHex = true)
    (fits : (status = .SUCCESS ∧ code = none ∧ 1 ≤ pageCount ∧ 1 ≤ outputBytes) ∨ (status = .FAILED ∧ code ≠ none)) :
    validatePdfCdr (reportFields env fingerprint status pageCount totalPixels outputBytes code) = .ok () ↔
      pageCount ≤ 1000 ∧ (0 ≤ totalPixels ∧ totalPixels ≤ 1000000000) ∧ 0 ≤ outputBytes ∧ outputBytes ≤ 1000000000 := by
  have last : (match status with
      | .SUCCESS => require (code = none ∧ 1 ≤ (pageCount : Int) ∧ 1 ≤ outputBytes)
          (ValidationError.invalid (lit "successful CDR result is incomplete"))
      | .FAILED => require (code ≠ none)
          (ValidationError.invalid (lit "failed CDR result requires a bounded failure code"))) = .ok () := by
    rcases fits with ⟨rfl,none,some,bytes⟩ | ⟨rfl,known⟩
    · exact require_ok.mpr ⟨none,by omega,bytes⟩
    · exact require_ok.mpr known
  simp only [validatePdfCdr, require_bind_ok]
  simp only [reportFields]
  constructor
  · rintro ⟨_,_,_,_,pages,pixels,bytes,_⟩
    exact ⟨by omega,pixels,bytes⟩
  · rintro ⟨pages,pixels,bytes⟩
    exact ⟨show lengthWithin 1 32 PDF_CDR_VERSION by decide,lower,env.versionBindLength,env.versionFitzLength,by omega,
      pixels,bytes,Int.le_max_left _ _,⟨trivial,trivial⟩,last⟩

variable (floats)

/-- The trusted side reads a report as the worker meant it. -/
structure Understood (fingerprint : Text) (r : Report) : Prop where
  validates : ∃ result, validateResult floats r.stdout = .ok result
  success : (sanitize PDF_CDR_VERSION fingerprint (execution floats 0 (.ok r))).succeeded.isSome ↔ r.status = lit "SUCCESS"
  failure : (sanitize PDF_CDR_VERSION fingerprint (execution floats 0 (.ok r))).failureCode.map CdrFailureCode.value =
    r.failureCode

variable {floats}

theorem checkedResult_ok {fields : PdfCdrFields} {result : PdfCdrResult} :
    checkedResult fields = .ok result ↔ result.toPdfCdrFields = fields := by
  unfold checkedResult
  split
  · rename_i valid
    constructor
    · intro checked
      cases checked
      rfl
    · rintro rfl
      rfl
  · rename_i e invalid
    constructor
    · nofun
    · rintro rfl
      rw [result.valid] at invalid
      cases invalid

/-- A report is understood when its numbers are in range. -/
theorem understood_report {env : Environment} {fingerprint : Text} {status : CdrStatus} {pageCount : Nat}
    {totalPixels outputBytes : Int} {code : Option CdrFailureCode}
    (lower : fingerprint.length = 64 ∧ fingerprint.all lowerHex = true)
    (fits : (status = .SUCCESS ∧ code = none ∧ 1 ≤ pageCount ∧ 1 ≤ outputBytes) ∨ (status = .FAILED ∧ code ≠ none)) :
    Understood floats fingerprint (report env fingerprint (statusValue status) pageCount totalPixels outputBytes
      (code.map CdrFailureCode.value)) ↔
      pageCount ≤ 1000 ∧ (0 ≤ totalPixels ∧ totalPixels ≤ 1000000000) ∧ 0 ≤ outputBytes ∧ outputBytes ≤ 1000000000 := by
  have decoded := validateResult_report floats env fingerprint status pageCount totalPixels outputBytes code
  constructor
  · rintro ⟨⟨result,validates⟩,_,_⟩
    rw [decoded, checkedResult_ok] at validates
    apply (reportFields_valid lower fits).mp
    rw [← validates]
    exact result.valid
  · intro ranges
    have valid : validatePdfCdr (reportFields env fingerprint status pageCount totalPixels outputBytes code) = .ok () :=
      (reportFields_valid lower fits).mpr ranges
    have validates := decoded.trans ((@checkedResult_ok _ ⟨_,valid⟩).mpr rfl)
    have ended : sanitize PDF_CDR_VERSION fingerprint (execution floats 0 (.ok (report env fingerprint (statusValue status)
        pageCount totalPixels outputBytes (code.map CdrFailureCode.value)))) =
        if status = .FAILED then ⟨some ⟨_,valid⟩,some (code.getD .RENDER_FAILED)⟩ else ⟨some ⟨_,valid⟩,none⟩ := by
      rw [execution, validates]
      simp [sanitize, reportFields]
      rfl
    refine ⟨⟨_,validates⟩,?_,?_⟩
    · rw [ended]
      rcases fits with ⟨rfl,_⟩ | ⟨rfl,_⟩
      · simp [CdrOutcome.succeeded, reportFields, report, statusValue]
      · simp [CdrOutcome.succeeded, reportFields, report, statusValue, lit]
    · rw [ended]
      rcases fits with ⟨rfl,rfl,_⟩ | ⟨rfl,known⟩
      · rfl
      · obtain ⟨code,rfl⟩ := Option.ne_none_iff_exists'.mp known
        rfl

/-- Every page is within the limits in points and in pixels, and so is the sum with each page. -/
def PagesWithin (l : Limits) (env : Environment) : Prop :=
  ∃ source, env.source = .ok source ∧ ∀ i page, source.pages[i]? = some page →
    ∃ width height widthPixels heightPixels, page.rect = .ok (some width,some height) ∧ PointsWithin l width height ∧
      ceilPixels width l.dpi = some widthPixels ∧ ceilPixels height l.dpi = some heightPixels ∧
      PixelsWithin l widthPixels heightPixels (pixelsOf l source.pages (i + 1))

theorem completes_pagesWithin {l : Limits} {env : Environment} {size : Nat} (completes : Completes l env size) :
    PagesWithin l env := by
  obtain ⟨⟨source,rendered⟩,_⟩ := completes
  refine ⟨source,rendered.opened.opened,?_⟩
  intro i page at_
  obtain ⟨page',at',width,height,sized,within,_⟩ := rendered.pages i (List.getElem?_eq_some_iff.mp at_).1
  rw [at_] at at'
  cases at'
  obtain ⟨x,y,rect,points,toWidth,toHeight⟩ := pixelSize_cases sized
  rw [Int.zero_add] at within
  exact ⟨x,y,width,height,rect,points,toWidth,toHeight,within⟩

/-- A report that is returned is understood exactly when the rendering stays in the ranges of the trusted side. -/
theorem reported_understood {l : Limits} {env : Environment} {fingerprint : Text} {r : Report}
    (lower : fingerprint.length = 64 ∧ fingerprint.all lowerHex = true) (returned : reported l env fingerprint = .ok r) :
    Understood floats fingerprint r ↔ Reportable l env := by
  obtain ⟨status,code,outputBytes,rfl,ended⟩ := reported_cases returned
  have nonneg := (render_pixels l env).1
  rcases ended with ⟨size,completes,rfl,rfl,rfl⟩ | ⟨fails,rfl,known,rfl⟩
  · obtain ⟨source,rendered⟩ := completes.1
    have pages := (render_opened rendered.opened (l := l)).2
    have count := rendered.count
    have positive := completes.2.positive
    rw [understood_report lower (.inl ⟨rfl,rfl,by omega,by omega⟩), render_pageCount]
    constructor
    · rintro ⟨pages,pixels,bytes⟩
      refine ⟨pages,(render_pixels l env).2.mp pixels.2,?_,fun none => absurd completes (none size)⟩
      intro size' completes'
      have same := completes.2.stat
      rw [completes'.2.stat] at same
      cases same
      omega
    · rintro ⟨pages,pixels,success,_⟩
      have bytes := success size completes
      exact ⟨pages,⟨nonneg,(render_pixels l env).2.mpr pixels⟩,by omega,by omega⟩
  · rw [understood_report lower (.inr ⟨rfl,known⟩), render_pageCount]
    have bytes_iff : (0 ≤ boundedOutputSize l env ∧ boundedOutputSize l env ≤ 1000000000) ↔ ∀ size ∈ env.outputSize,
        0 ≤ l.maxOutputBytes ∧ (size ≤ 1000000000 ∨ l.maxOutputBytes ≤ 1000000000) := by
      unfold boundedOutputSize
      split
      · simp [*]
      · rename_i size present
        rw [present]
        simp only [Option.mem_some_iff, forall_eq']
        omega
    constructor
    · rintro ⟨pages,pixels,bytes⟩
      exact ⟨pages,(render_pixels l env).2.mp pixels.2,fun size completes => absurd completes (fails size),
        fun _ => bytes_iff.mp bytes⟩
    · rintro ⟨pages,pixels,_,failure⟩
      exact ⟨pages,⟨nonneg,(render_pixels l env).2.mpr pixels⟩,bytes_iff.mpr (failure fails)⟩

theorem failed_ne_success : statusValue .FAILED ≠ statusValue .SUCCESS := by decide

/-- A configuration that is accepted is rendered under its limits. -/
theorem sanitizePdf_accepted {cdr : Option Value} {config : Config} {l : Limits} (accepted : validatedConfig floats cdr = .ok config)
    (read : limits floats config = .ok l) (env : Environment) :
    sanitizePdf floats cdr env = (reported l env (fingerprintOf config)).mapError .raised := by
  rw [sanitizePdf, accepted]
  show ((limits floats config).mapError Escaped.rejected >>= _) = _
  rw [read]
  rfl

/-- Under a configuration that the worker accepts, the trusted side understands a report, with every page of a success
    within the limits, exactly when the rendering stays in the ranges of the trusted side; an error that escapes is a
    failure. -/
theorem rendering_understood (floats : Floats) (env : Environment) {cdr : Option Value} {config : Config}
    (accepted : validatedConfig floats cdr = .ok config) :
    ∃ l, limits floats config = .ok l ∧
      (∀ r, sanitizePdf floats cdr env = .ok r →
        ((Understood floats (fingerprintOf config) r ∧ (r.status = lit "SUCCESS" → PagesWithin l env)) ↔
          Reportable l env)) ∧
      ∀ escaped, sanitizePdf floats cdr env = .error escaped → ∀ exitCode ≠ 0,
        sanitize PDF_CDR_VERSION (fingerprintOf config) (execution floats exitCode (.error escaped)) =
          ⟨none,some .RENDER_FAILED⟩ := by
  obtain ⟨l,read⟩ := limits_accepted accepted
  refine ⟨l,read,?_,?_⟩
  · intro r returned
    rw [sanitizePdf_accepted accepted read, mapError_ok] at returned
    have understood : Understood floats (fingerprintOf config) r ↔ Reportable l env :=
      reported_understood (fingerprint_lower accepted) returned
    have within : r.status = lit "SUCCESS" → PagesWithin l env := by
      intro success
      obtain ⟨status,code,outputBytes,rfl,⟨size,completes,_⟩ | ⟨_,rfl,_⟩⟩ := reported_cases returned
      · exact completes_pagesWithin completes
      · exact absurd success failed_ne_success
    rw [understood]
    exact ⟨And.left,fun reportable => ⟨reportable,within⟩⟩
  · intro escaped _ exitCode nonzero
    simp [sanitize, execution, nonzero]

/-! ### Samples -/

/-- Calls of a rendering that all succeed, for a source. -/
def quietEnvironment (source : Source) : Environment where
  outputIsFile := true
  source := .ok source
  newOutput := .ok ()
  save := .ok ()
  closeOutput := .ok ()
  reconstructedSize := .ok 900
  openFiles := .ok ()
  chunks := [⟨.ok 900,.ok ()⟩]
  flush := .ok ()
  outputSize := some 0
  startedNs := 0
  endedNs := 0
  versionBind := lit "1.28.2"
  versionFitz := lit "1.28.2"
  versionBindLength := by decide
  versionFitzLength := by decide

/-- What the worker decodes of the configuration that holds without settings. -/
def defaultCdr : Option Value := some (.obj (decodedFields (workerCdrConfig defaultSettings)))

/-- The limits of settings. -/
def settingsLimits (s : Settings floats) : Limits where
  dpi := PDF_CDR_DPI
  maxPages := s.cdrMaxPages
  maxWidthPoints := floats.value s.cdrMaxWidthPoints
  maxHeightPoints := floats.value s.cdrMaxHeightPoints
  maxWidthPixels := s.cdrMaxWidthPixels
  maxHeightPixels := s.cdrMaxHeightPixels
  maxPixelsPerPage := s.cdrMaxPixelsPerPage
  maxTotalPixels := s.cdrMaxTotalPixels
  maxRasterBytes := s.cdrMaxRasterBytes
  maxOutputBytes := s.cdrMaxOutputBytes

/-- The worker reads the limits of the settings. -/
theorem limits_decoded (s : Settings floats) : limits floats (decodedFields (workerCdrConfig s)) = .ok (settingsLimits s) := by
  have points : floats.value (floats.parse (floats.repr s.cdrMaxWidthPoints)) = floats.value s.cdrMaxWidthPoints ∧
      floats.value (floats.parse (floats.repr s.cdrMaxHeightPoints)) = floats.value s.cdrMaxHeightPoints := by
    rw [floats.roundTrip, floats.roundTrip]
    exact ⟨rfl,rfl⟩
  rw [settingsLimits, ← points.1, ← points.2]
  simp only [limits, integer, numberValue, number, decoded_get]
  rfl

def blankPage : Page := ⟨.ok (some 612,some 792),fun _ => .ok (1275,1650),.ok ()⟩

def encryptedSource : Source := ⟨true,[],.ok ()⟩

/-- A document of two pages. -/
def shortSource : Source := ⟨false,[blankPage,blankPage],.ok ()⟩

/-- Both pages are rendered, and a document that needs a password is refused. -/
theorem rendering_understood_rendered :
    ∃ l, limits wholeFloats (decodedFields (workerCdrConfig defaultSettings)) = .ok l ∧
      (∃ r, sanitizePdf wholeFloats defaultCdr (quietEnvironment shortSource) = .ok r ∧
        r.status = lit "SUCCESS" ∧ r.pageCount = 2 ∧ r.totalPixels = 4207500 ∧
        ((Understood wholeFloats (fingerprintOf (decodedFields (workerCdrConfig defaultSettings))) r ∧
          (r.status = lit "SUCCESS" → PagesWithin l (quietEnvironment shortSource))) ↔
          Reportable l (quietEnvironment shortSource))) ∧
      ∃ r, sanitizePdf wholeFloats defaultCdr (quietEnvironment encryptedSource) = .ok r ∧
        r.failureCode = some (lit "encrypted") ∧
        ((Understood wholeFloats (fingerprintOf (decodedFields (workerCdrConfig defaultSettings))) r ∧
          (r.status = lit "SUCCESS" → PagesWithin l (quietEnvironment encryptedSource))) ↔
          Reportable l (quietEnvironment encryptedSource)) := by
  have accepted : validatedConfig wholeFloats defaultCdr = .ok (decodedFields (workerCdrConfig defaultSettings)) :=
    validatedConfig_decoded defaultSettings
  have read := limits_decoded defaultSettings
  have rendered (fingerprint : Text) : reported (settingsLimits defaultSettings) (quietEnvironment shortSource) fingerprint =
      .ok (report (quietEnvironment shortSource) fingerprint (lit "SUCCESS") 2 4207500 900 none) := by
    have pages : render (settingsLimits defaultSettings) (quietEnvironment shortSource) = (.ok (),2,4207500) := by
      decide +kernel
    rw [reported, pages]
    rfl
  have completed := sanitizePdf_accepted accepted read (quietEnvironment shortSource)
  have refused := sanitizePdf_accepted accepted read (quietEnvironment encryptedSource)
  rw [rendered] at completed
  refine ⟨settingsLimits defaultSettings,read,⟨_,completed,rfl,rfl,rfl,?_⟩,⟨_,refused,rfl,?_⟩⟩
  · obtain ⟨l,same,understood,_⟩ := rendering_understood wholeFloats (quietEnvironment shortSource) accepted
    rw [read] at same
    cases same
    exact understood _ completed
  · obtain ⟨l,same,understood,_⟩ := rendering_understood wholeFloats (quietEnvironment encryptedSource) accepted
    rw [read] at same
    cases same
    exact understood _ refused

/-- A document of 1001 pages. -/
def longSource : Source := ⟨false,List.replicate 1001 blankPage,.ok ()⟩

/-- The worker refuses a long document for its pages, and the trusted side refuses the report. -/
theorem long_document_misread :
    ∃ r, sanitizePdf wholeFloats defaultCdr (quietEnvironment longSource) = .ok r ∧
      r.failureCode = some (lit "page_limit") ∧
      ¬ Understood wholeFloats (fingerprintOf (decodedFields (workerCdrConfig defaultSettings))) r := by
  have accepted : validatedConfig wholeFloats defaultCdr = .ok (decodedFields (workerCdrConfig defaultSettings)) :=
    validatedConfig_decoded defaultSettings
  have returned := sanitizePdf_accepted accepted (limits_decoded defaultSettings) (quietEnvironment longSource)
  have opened : Opened (quietEnvironment longSource) longSource := ⟨rfl,rfl,rfl⟩
  have long : longSource.pages.length = 1001 := List.length_replicate
  have refused (l : Limits) (few : l.maxPages = 100) :
      reported l (quietEnvironment longSource) (fingerprintOf (decodedFields (workerCdrConfig defaultSettings))) =
        .ok (report (quietEnvironment longSource) (fingerprintOf (decodedFields (workerCdrConfig defaultSettings)))
          (lit "FAILED") longSource.pages.length 0 (boundedOutputSize l (quietEnvironment longSource))
          (some (lit "page_limit"))) := by
    have rendered : render l (quietEnvironment longSource) =
        (.error (.controlled (lit "page_limit")),longSource.pages.length,0) := by
      rw [(render_opened opened).1, renderSource, if_neg (by decide), if_pos (by omega)]
      rfl
    rw [reported, rendered]
    rfl
  have ended := refused (settingsLimits defaultSettings) rfl
  rw [ended] at returned
  refine ⟨_,returned,rfl,fun understood => ?_⟩
  have reportable := (reported_understood (fingerprint_lower accepted) ended).mp understood
  have pages := reportable.pages longSource opened
  omega

end DocGuard.CdrWorker
