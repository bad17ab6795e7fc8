import SyntaxExport.Proofs.Document.Truncation
import SyntaxExport.Proofs.Pass.Lockstep

/-!
# Documents in sinks that are too small

A pass ends at the first text that does not fit into its sink. A pass over the same nodes whose sink
takes everything goes on from there, and nothing of what it writes is in the small sink. So either both
passes come to the same, or the one with the small sink ended for I/O, and its sink holds the beginning
of a text that is longer (`CutPass`).

`TextWriter.full_sink_truncates` says this of whole documents, and of commands that go on after errors.
-/

namespace SyntaxExport

namespace TextWriter

/-- The two writers as long as the whole text fits. -/
structure Fits (limit : Nat) (w u : TextWriter) : Prop where
  truncates : Truncates limit w u
  size : u.sink.bytes.size ≤ limit

/-- A writer whose sink takes everything has written more than `limit` bytes, of which the first are
`bytes`. -/
structure Exceeds (limit : Nat) (bytes : ByteArray) (u : TextWriter) : Prop where
  unlimited : u.sink.capacity = none
  flush : u.sink.flushFails = false
  size : limit < u.sink.bytes.size
  bytes_eq : bytes = u.sink.bytes.extract 0 limit

variable {limit : Nat} {w u : TextWriter}

theorem Truncates.exceeds (h : Truncates limit w u) (hsize : limit < u.sink.bytes.size) :
    Exceeds limit w.sink.bytes u :=
  ⟨h.unlimited, h.flush_unlimited, hsize, h.bytes⟩

/-- As long as the text fits, a command has the same answer from both writers, or it is the one whose
text is cut off. -/
theorem CutShort.cases {x y : Except WriteError Unit × TextWriter} (h : CutShort limit u x y)
    (hfits : u.sink.bytes.size ≤ limit) :
    Agree (Fits limit) x y ∨ x.1 = .error .io ∧ Exceeds limit x.2.sink.bytes y.2 := by
  have hanswer := h.answer hfits
  by_cases hsize : y.2.sink.bytes.size ≤ limit
  · rw [if_pos hsize] at hanswer
    exact .inl ⟨hanswer, h.truncates, hsize⟩
  · rw [if_neg hsize] at hanswer
    exact .inr ⟨hanswer, h.truncates.exceeds (Nat.lt_of_not_le hsize)⟩

theorem Exceeds.write {bytes : ByteArray} (h : Exceeds limit bytes u) (text : String)
    (s : TextState) : Exceeds limit bytes (u.wrote text s) := by
  rw [wrote, Sink.write_eq_of_unlimited h.unlimited]
  refine ⟨h.unlimited, h.flush, ?_, ?_⟩
  · rw [ByteArray.size_append]
    exact Nat.lt_of_lt_of_le h.size (Nat.le_add_right _ _)
  · have hover : limit - u.sink.bytes.size = 0 := Nat.sub_eq_zero_of_le (Nat.le_of_lt h.size)
    rw [ByteArray.extract_append, hover, Nat.zero_sub, ByteArray.extract_same, ByteArray.append_empty]
    exact h.bytes_eq

/-- What a writer does next changes nothing of the beginning of its text. -/
theorem exceeds_lockstep (limit : Nat) (bytes : ByteArray) :
    Lockstep fun u v : TextWriter => u = v ∧ Exceeds limit bytes v where
  call {u v} c h := by
    obtain ⟨rfl, h⟩ := h
    refine ⟨rfl, rfl, ?_⟩
    change Exceeds limit bytes (u.call c).2
    cases hc : u.state.call u.format c with
    | error e =>
      rw [call_of_error hc]
      exact h
    | ok x =>
      rw [call_of_text hc]
      exact h.write x.1 x.2
  finish {u v} h := by
    obtain ⟨rfl, h⟩ := h
    refine ⟨rfl, rfl, ?_⟩
    change Exceeds limit bytes u.finish.2
    cases hc : u.state.finish u.format with
    | error e =>
      rw [finish_of_error hc]
      exact h
    | ok x =>
      rw [finish_of_text h.flush hc]
      exact h.write x.1 x.2

end TextWriter

open TextWriter

/-! ### Passes -/

/-- The part of a pass that a command is. -/
def Pass.command {σ : Type} [DocumentWriter σ] (c : Command) : PassStep σ := fun p =>
  match c.perform p.writer with
  | (.ok (), writer) => (.ok (), { p with writer := writer })
  | (.error e, writer) => (.error (.write e), { p with writer := writer })

/-- The results of two passes over the same nodes, the first with the small sink. -/
def CutPass (limit : Nat) (x y : Except ExportError Unit × Pass TextWriter) : Prop :=
  Agree (Pass.Beside (Fits limit)) x y ∨
    x.1 = .error (.write .io) ∧ Exceeds limit x.2.writer.sink.bytes y.2.writer

namespace CutPass

variable {limit : Nat} {p q : Pass TextWriter}

theorem command (c : Command) (h : p.Beside (Fits limit) q) :
    CutPass limit (Pass.command c p) (Pass.command c q) := by
  rw [Pass.command, Pass.command]
  rcases (h.writer.truncates.perform c).cases h.writer.size with hsame | ⟨hio, hover⟩
  · obtain ⟨answer, w, u, hw, hu, hnext⟩ := hsame.exists_eq
    rw [hw, hu]
    cases answer with
    | ok => exact .inl ⟨rfl, h.cursor, h.identities, hnext⟩
    | error e => exact .inl ⟨rfl, h.cursor, h.identities, hnext⟩
  · rcases hw : c.perform p.writer with ⟨e | _, w⟩
    · rw [hw] at hio hover
      cases hio
      refine .inr ⟨rfl, ?_⟩
      rcases hu : c.perform q.writer with ⟨_ | _, u⟩ <;> rw [hu] at hover <;> exact hover
    · rw [hw] at hio
      cases hio

theorem passCall (c : Call) (h : p.Beside (Fits limit) q) :
    CutPass limit (Pass.call c p) (Pass.call c q) :=
  command (.call c) h

theorem act (mode : IdentityMode) (a : Act) (h : p.Beside (Fits limit) q) :
    CutPass limit (a.perform mode p) (a.perform mode q) := by
  cases a with
  | call c => exact passCall c h
  | identity n =>
    obtain ⟨cursor, identities, w⟩ := p
    obtain ⟨cursor', identities', u⟩ := q
    obtain ⟨rfl, rfl, hw⟩ := h
    exact passCall _ ⟨rfl, rfl, hw⟩
  | move loc => exact .inl ⟨rfl, congrArg (·.advance loc) h.cursor, h.identities, h.writer⟩
  | fail e => exact .inl ⟨rfl, h⟩

/-- Where the first pass ended for I/O, the second goes on, and the beginning of its text stays. -/
theorem all_cons {step : PassStep TextWriter} {steps : List (PassStep TextWriter)}
    (hstep : CutPass limit (step p) (step q))
    (hsteps : ∀ {p q : Pass TextWriter}, p.Beside (Fits limit) q →
      CutPass limit (Pass.all steps p) (Pass.all steps q))
    (hexceeds : ∀ {bytes : ByteArray} {q : Pass TextWriter}, Exceeds limit bytes q.writer →
      Exceeds limit bytes (Pass.all steps q).2.writer) :
    CutPass limit (Pass.all (step :: steps) p) (Pass.all (step :: steps) q) := by
  rw [Pass.all, Pass.all]
  rcases hstep with hsame | ⟨hio, hover⟩
  · obtain ⟨answer, p₁, q₁, hp, hq, hnext⟩ := hsame.exists_eq
    rw [hp, hq]
    cases answer with
    | ok => exact hsteps hnext
    | error e => exact .inl ⟨rfl, hnext⟩
  · rcases hp : step p with ⟨e | _, p₁⟩
    · rw [hp] at hio hover
      cases hio
      refine .inr ⟨rfl, ?_⟩
      rcases hq : step q with ⟨e | _, q₁⟩
      · rw [hq] at hover
        exact hover
      · rw [hq] at hover
        exact hexceeds hover
    · rw [hp] at hio
      cases hio

theorem acts (mode : IdentityMode) : ∀ (as : List Act) {p q : Pass TextWriter},
    p.Beside (Fits limit) q → CutPass limit (Act.performAll mode as p) (Act.performAll mode as q)
  | [], p, q, h => .inl ⟨rfl, h⟩
  | a :: as, p, q, h => by
    refine all_cons (act mode a h) (acts mode as) fun {bytes q} hq => ?_
    exact ((exceeds_lockstep limit bytes).acts mode as ⟨rfl, rfl, rfl, hq⟩).2.writer.2

theorem site (ctx : Context) (opts : Options) (fuel : Nat) (s : Site)
    (h : p.Beside (Fits limit) q) :
    CutPass limit (Pass.site ctx opts fuel s p) (Pass.site ctx opts fuel s q) := by
  rw [Pass.site_eq_run, Pass.run_eq_script, Pass.run_eq_script, h.cursor]
  exact acts opts.identityMode _ h

/-- A translation unit up to the end of the document. -/
theorem runPass (ctx : Context) (root : DeclId) (opts : Options) (h : p.Beside (Fits limit) q) :
    CutPass limit (Session.runPass ctx root opts p) (Session.runPass ctx root opts q) := by
  have hfinish : ∀ p : Pass TextWriter,
      Pass.all [Pass.command .finish] p = Pass.command .finish p := fun p => by
    rw [Pass.all_singleton]
  change CutPass limit (Pass.all [_, Pass.command .finish] p) (Pass.all [_, Pass.command .finish] q)
  refine all_cons (site ctx opts ctx.nestingBound (.decl (some root)) h) (fun {p q} h => ?_)
    fun {bytes q} hq => ?_
  · rw [hfinish, hfinish]
    exact command .finish h
  · rw [hfinish, Pass.command]
    have hover := ((exceeds_lockstep limit bytes).perform .finish ⟨rfl, hq⟩).2.2
    rcases hu : Command.finish.perform q.writer with ⟨_ | _, u⟩ <;> rw [hu] at hover <;> exact hover

end CutPass

/-! ### Documents -/

namespace TextWriter

/-- The documents of two fresh sessions. -/
theorem writeDocument_cases (ctx : Context) (root : DeclId) (opts : Options) {limit : Nat}
    {w u : TextWriter} (h : Fits limit w u) :
    let x := writeDocument ctx root opts w
    let y := writeDocument ctx root opts u
    (x.1 = y.1 ∧ Fits limit x.2 y.2) ∨
      x.1 = .error (.write .io) ∧ Exceeds limit x.2.sink.bytes y.2 := by
  simp only [writeDocument, Session.write, Bool.false_eq_true, if_false]
  cases opts.check ctx root with
  | error e => exact .inl ⟨rfl, h⟩
  | ok =>
    have hfresh : Pass.Beside (Fits limit) (⟨{}, .empty, w⟩ : Pass TextWriter) ⟨{}, .empty, u⟩ :=
      ⟨rfl, rfl, h⟩
    rcases CutPass.runPass ctx root opts hfresh with hsame | ⟨hio, hover⟩
    · obtain ⟨answer, p, q, hp, hq, hnext⟩ := hsame.exists_eq
      simp only [hp, hq]
      cases answer with
      | ok => exact .inl ⟨rfl, hnext.writer⟩
      | error e => exact .inl ⟨rfl, hnext.writer⟩
    · rcases hp : Session.runPass ctx root opts ⟨{}, .empty, w⟩ with ⟨e | _, p⟩
      · rw [hp] at hio hover
        cases hio
        refine .inr ⟨rfl, ?_⟩
        rcases hq : Session.runPass ctx root opts ⟨{}, .empty, u⟩ with ⟨_ | _, q⟩ <;>
          rw [hq] at hover <;> exact hover
      · rw [hp] at hio
        cases hio

theorem extract_min (bytes : ByteArray) (limit : Nat) :
    bytes.extract 0 (min limit bytes.size) = bytes.extract 0 limit := by
  rcases Nat.le_total limit bytes.size with hle | hle
  · rw [Nat.min_eq_left hle]
  · rw [Nat.min_eq_right hle, ByteArray.extract_zero_size, extract_of_size_le hle]

/-- A sink that takes `limit` bytes truncates and never corrupts. A document that comes to a text and a
result in a sink that takes everything comes in the small one to the first `limit` bytes of that text,
with a failure for I/O where the text is longer and the same result where it is not. And commands that
go on after errors hand the first bytes of the same text to the small sink, where a command is rejected
for another reason than I/O exactly if it is rejected so in the other. -/
theorem full_sink_truncates (limit : Nat) :
    (∀ (ctx : Context) (root : DeclId) (opts : Options),
      let full := writeText ctx root opts {}
      let cut := writeText ctx root opts { capacity := some limit }
      cut.2.bytes = full.2.bytes.extract 0 (min limit full.2.bytes.size) ∧
      cut.1 = if limit < full.2.bytes.size then .error (.write .io) else full.1) ∧
    ∀ (f : TextFormat) (cs : List Command),
      let full := Command.performEach (cs.map ([·])) { format := f : TextWriter }
      let cut := Command.performEach (cs.map ([·]))
        { format := f, sink := { capacity := some limit } : TextWriter }
      cut.2.sink.bytes = full.2.sink.bytes.extract 0 (min limit full.2.sink.bytes.size) ∧
      ∀ (i : Nat) (e : WriteError), e ≠ .io →
        (cut.1[i]? = some (.error e) ↔ full.1[i]? = some (.error e)) := by
  refine ⟨fun ctx root opts => ?_, fun f cs => ?_⟩
  · have hfresh : Fits limit { format := opts.textFormat, sink := { capacity := some limit } }
        { format := opts.textFormat } := ⟨truncates_fresh limit opts.textFormat, Nat.zero_le limit⟩
    rcases writeDocument_cases ctx root opts hfresh with ⟨hresult, hfits⟩ | ⟨hio, hover⟩
    · exact ⟨hfits.truncates.bytes.trans (extract_min _ limit).symm,
        hresult.trans (if_neg (Nat.not_lt_of_le hfits.size)).symm⟩
    · exact ⟨hover.bytes_eq.trans (extract_min _ limit).symm,
        hio.trans (if_pos hover.size).symm⟩
  · obtain ⟨htruncates, hrejected⟩ := (truncates_fresh limit f).performEach cs
    exact ⟨htruncates.bytes.trans (extract_min _ limit).symm, hrejected⟩

end TextWriter

end SyntaxExport
