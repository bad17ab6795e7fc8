import SyntaxExport.Proofs.Recording

/-!
# Locations read back

A document holds locations relative to each other. `Reading.read?` reads them back from the outline of
the document alone: it keeps a file and a line, both unknown at first, and fails at a relative
location that it cannot complete. `Session.locations_replayed` says that it never fails, and that it
finds the locations of the nodes and attributes of the document, no more and no fewer.
-/

namespace SyntaxExport

/-! ### The reader -/

/-- A location as a document tells it. -/
structure Position where
  file : String
  line : Nat
  column : Nat
  deriving DecidableEq, Repr

/-- The locations of a field, with the pointer of their node or attribute. -/
structure Finding where
  pointer : String
  field : String
  positions : List (Option Position)
  deriving DecidableEq, Repr

/-- The file and the line that a reader has come to. -/
structure Reading where
  file : Option String := none
  line : Option Nat := none

namespace Reading

/-- Reads a location. The outer `none` is an object that is no location, or one that leaves out what
the reader does not know yet. -/
def location? (r : Reading) : Value → Option (Option Position × Reading)
  | .object [] => some (none, r)
  | .object [("file", .leaf (.string f)), ("line", .leaf (.unsigned l)),
      ("column", .leaf (.unsigned c))] => some (some ⟨f, l, c⟩, ⟨some f, some l⟩)
  | .object [("line", .leaf (.unsigned l)), ("column", .leaf (.unsigned c))] =>
    r.file.map fun f => (some ⟨f, l, c⟩, ⟨some f, some l⟩)
  | .object [("column", .leaf (.unsigned c))] =>
    match r.file, r.line with
    | some f, some l => some (some ⟨f, l, c⟩, r)
    | _, _ => none
  | _ => none

/-- Reads the locations of a field. -/
def locations? : List Value → Reading → Option (List (Option Position) × Reading)
  | [], r => some ([], r)
  | v :: vs, r =>
    match r.location? v with
    | none => none
    | some (p, r) => (locations? vs r).map fun (ps, r) => (p :: ps, r)

/-- Reads the locations of an outline in document order. -/
def read? : List (Mark Scalar) → Reading → Option (List Finding × Reading)
  | [], r => some ([], r)
  | .locations (some (.string pointer)) field parts :: ms, r =>
    match locations? parts r with
    | none => none
    | some (ps, r) => (read? ms r).map fun (fs, r) => (⟨pointer, field, ps⟩ :: fs, r)
  | .locations _ _ _ :: _, _ => none
  | _ :: ms, r => read? ms r

end Reading

namespace Value

/-- The locations of a document. -/
def findings? (v : Value) : Option (List Finding) :=
  (Reading.read? (v.outline none) {}).map (·.1)

/-- The pointers that begin objects of a document: those of its nodes and attributes. -/
def heads (v : Value) : List String :=
  (v.outline none).flatMap fun
    | .head (.string pointer) => [pointer]
    | _ => []

end Value

/-! ### What is to be found -/

namespace Context

/-- A location with the name of its file. The outer `none` is a file that is not in the table. -/
def position? (ctx : Context) (paths : PathRule) : Option SourceLocation → Option (Option Position)
  | none => some none
  | some loc => (ctx.fileName? loc.file).map fun name =>
    some ⟨paths.normalize name, loc.line, loc.column⟩

/-- What a reader has to find for a field with locations. -/
def finding? (ctx : Context) (paths : PathRule) (text : NodeRef → String) (x : Spot) :
    Option Finding :=
  (x.locations.mapM (ctx.position? paths)).map fun ps => ⟨text x.owner, x.field, ps⟩

end Context

/-! ### Reading along -/

section Reading

variable {ctx : Context} {paths : PathRule} {text : NodeRef → String}

/-- The reader knows the file and the line of the cursor. -/
def Reading.Follows (ctx : Context) (paths : PathRule) (r : Reading) (c : LocationCursor) : Prop :=
  (match c.file with
    | none => r.file = none
    | some f => ∃ name, ctx.fileName? f = some name ∧ r.file = some (paths.normalize name))
  ∧ r.line = c.line

/-- A relative location is read back, and reader and cursor stay together. -/
theorem exists_location {r : Reading} {c : LocationCursor} (hr : r.Follows ctx paths c)
    {loc : Option SourceLocation} {v : Value} (hv : (c.delta loc).value ctx paths = .ok v) :
    ∃ p r', ctx.position? paths loc = some p ∧ r.location? v = some (p, r')
      ∧ r'.Follows ctx paths (c.advance loc) := by
  cases loc with
  | none =>
    cases hv
    exact ⟨none, r, rfl, rfl, hr⟩
  | some loc =>
    obtain ⟨hfile, hline⟩ := hr
    by_cases hf : c.file = some loc.file
    · rw [hf] at hfile
      obtain ⟨name, hname, hrfile⟩ := hfile
      have hposition : ctx.position? paths (some loc)
          = some (some ⟨paths.normalize name, loc.line, loc.column⟩) := by
        simp [Context.position?, hname]
      by_cases hl : c.line = some loc.line
      · have hdelta : c.delta (some loc) = .column loc.column := by
          simp [LocationCursor.delta, hf, hl]
        rw [hdelta] at hv
        cases hv
        refine ⟨_, r, hposition, ?_, ⟨name, hname, hrfile⟩, hline.trans hl⟩
        simp [Reading.location?, hrfile, hline, hl]
      · have hdelta : c.delta (some loc) = .line loc.line loc.column := by
          simp [LocationCursor.delta, hf, hl]
        rw [hdelta] at hv
        cases hv
        refine ⟨_, ⟨some (paths.normalize name), some loc.line⟩, hposition, ?_, ⟨name, hname, rfl⟩,
          rfl⟩
        simp [Reading.location?, hrfile]
    · have hdelta : c.delta (some loc) = .file loc.file loc.line loc.column := by
        simp [LocationCursor.delta, hf]
      rw [hdelta, LocationDelta.value] at hv
      split at hv
      · cases hv
      · next name hname =>
        cases hv
        refine ⟨_, ⟨some (paths.normalize name), some loc.line⟩, ?_, rfl, ⟨name, hname, rfl⟩, rfl⟩
        simp [Context.position?, hname]

theorem exists_locations {ps : List (Tree Item)} {vs : List Value} {c c' : LocationCursor}
    (h : FilledParts ctx paths ps c vs c') {r : Reading} (hr : r.Follows ctx paths c) :
    ∃ positions r', (ps.filterMap Tree.location?).mapM (ctx.position? paths) = some positions
      ∧ Reading.locations? vs r = some (positions, r') ∧ r'.Follows ctx paths c' := by
  induction h generalizing r with
  | nil c => exact ⟨[], r, rfl, rfl, hr⟩
  | @cons loc ps vs v c c' hv _ ih =>
    obtain ⟨p, r₁, hp, hlocation, hr₁⟩ := exists_location hr hv
    obtain ⟨positions, r', hps, hlocations, hr'⟩ := ih hr₁
    refine ⟨p :: positions, r', ?_, ?_, hr'⟩
    · have hfirst : (Tree.leaf (.location loc) :: ps).filterMap Tree.location?
          = loc :: ps.filterMap Tree.location? := rfl
      rw [hfirst, List.mapM_cons, hp, hps]
      rfl
    · rw [Reading.locations?, hlocation]
      simp only [hlocations]
      rfl

/-- A reader that knows what the cursor holds reads the whole outline back, field by field. -/
theorem exists_findings {ms : List (Mark Item)} {ns : List (Mark Scalar)} {c c' : LocationCursor}
    (h : Filled ctx paths text ms c ns c') {r : Reading} (hr : r.Follows ctx paths c) :
    ∃ findings r', Reading.read? ns r = some (findings, r') ∧ r'.Follows ctx paths c'
      ∧ (ms.flatMap Mark.spots).map (ctx.finding? paths text) = findings.map some := by
  induction h generalizing r with
  | nil c => exact ⟨[], r, rfl, hr, rfl⟩
  | node n _ ih => exact ih hr
  | head n _ ih => exact ih hr
  | @locations n field ps vs ms ns c c₁ c' hparts _ ih =>
    obtain ⟨positions, r₁, hps, hlocations, hr₁⟩ := exists_locations hparts hr
    obtain ⟨findings, r', hread, hr', hfindings⟩ := ih hr₁
    refine ⟨⟨text n, field, positions⟩ :: findings, r', ?_, hr', ?_⟩
    · rw [Reading.read?, hlocations]
      simp only [hread]
      rfl
    · rw [List.flatMap_cons, Mark.spots, List.singleton_append, List.map_cons, hfindings,
        Context.finding?, hps]
      rfl

/-- The pointers of a document are those of its tree. -/
theorem heads_of_filled {ms : List (Mark Item)} {ns : List (Mark Scalar)} {c c' : LocationCursor}
    (h : Filled ctx paths text ms c ns c') : (ns.flatMap fun
      | .head (.string pointer) => [pointer]
      | _ => []) = (ms.flatMap Mark.heads).map text := by
  induction h with
  | nil => rfl
  | node n _ ih => exact ih
  | head n _ ih => exact congrArg (text n :: ·) ih
  | locations n field _ _ ih => exact ih

end Reading

/-! ### Documents -/

namespace Session

/-- The locations of a document are read back from it, in order and from an unknown place. They are
those of the nodes and attributes whose pointers stand in the document, each with its pointer, and
with the names of files as the document has them. -/
theorem locations_replayed {ctx : Context} {root : DeclId} {opts : Options} {s s' : Session}
    {r : Recorder} (h : s.write ctx root opts ({} : Recorder) = (.ok (), s', r)) :
    ∃ (v : Value) (findings : List Finding) (nodes : List NodeRef),
      r.document? = some v ∧ v.findings? = some findings ∧
      v.heads = nodes.map (s'.identities.text opts.identityMode) ∧
      (findings.map some).Perm ((nodes.flatMap ctx.spots).map
        (ctx.finding? opts.paths (s'.identities.text opts.identityMode))) := by
  obtain ⟨v, hv, -, hfilled⟩ := filled_of_write h
  have hexcess : ∀ x, excess ctx (Site.outline ctx opts ctx.nestingBound (.decl (some root))) x = 0 :=
    (Settled.outline opts ctx.nestingBound (.decl (some root))).2
  have hunknown : Reading.Follows ctx opts.paths {} {} := ⟨rfl, rfl⟩
  obtain ⟨findings, r', hread, -, hfindings⟩ := exists_findings hfilled hunknown
  refine ⟨v, findings, _, hv, ?_, heads_of_filled hfilled, ?_⟩
  · rw [Value.findings?, hread]
    rfl
  · rw [← hfindings]
    refine List.Perm.map _ (List.perm_iff_count.mpr fun x => ?_)
    have hx := hexcess x
    rw [excess] at hx
    omega

/-- A translation unit with a using directive on one line of its file. -/
def usingUnit : Context where
  files := #["a.cpp"]
  decls := #[{ kind := .translationUnit, context := some { decls := [⟨1⟩] } },
    { kind := .usingDirective, range := ⟨some ⟨⟨0⟩, 3, 1⟩, some ⟨⟨0⟩, 3, 18⟩⟩,
      payload := .usingDirective
        { usingLocation := some ⟨⟨0⟩, 3, 1⟩, namespaceKeyLocation := some ⟨⟨0⟩, 3, 7⟩ } }]

theorem locations_replayed_usingUnit : ∃ (s' : Session) (r : Recorder) (v : Value)
    (findings : List Finding) (nodes : List NodeRef),
    ({} : Session).write usingUnit ⟨0⟩ {} ({} : Recorder) = (.ok (), s', r) ∧
    r.document? = some v ∧ v.findings? = some findings ∧
    v.heads = nodes.map (s'.identities.text .anonymized) ∧
    (findings.map some).Perm ((nodes.flatMap usingUnit.spots).map
      (usingUnit.finding? .unchanged (s'.identities.text .anonymized))) := by
  obtain ⟨s', r, h⟩ : ∃ s' r,
      ({} : Session).write usingUnit ⟨0⟩ {} ({} : Recorder) = (.ok (), s', r) := ⟨_, _, rfl⟩
  obtain ⟨v, findings, nodes, hv, hfindings, hheads, hperm⟩ := locations_replayed h
  exact ⟨s', r, v, findings, nodes, h, hv, hfindings, hheads, hperm⟩

end Session

end SyntaxExport
