import SyntaxExport.Proofs.Document.Squeeze
import SyntaxExport.Proofs.Pass.Lockstep
import SyntaxExport.Proofs.Renumbering

/-!
# Pretty and compact documents

A pretty and a compact writer give the same answers to all calls, and what the pretty writer adds in a
call is what the compact one adds, up to blanks outside of string literals
(`TextWriter.pretty_squeezes`). The layout is no option of the pass, so the same holds of whole
documents, and of what there is of a document that fails.
-/

namespace SyntaxExport

/-! ### The layout is not read -/

theorem Context.acts_pretty (ctx : Context) (root : DeclId) (opts : Options) (pretty : Bool) :
    ctx.acts root { opts with pretty := pretty } = ctx.acts root opts := by
  have hfilter : ({ opts with pretty := pretty } : Options).filter = opts.filter := rfl
  rw [acts, acts, Site.tree_congr hfilter ctx]

namespace Session

variable {σ : Type} [DocumentWriter σ] (ctx : Context) (root : DeclId) (opts : Options) (pretty : Bool)

theorem runPass_pretty (ids : IdentityTable) (w : σ) :
    runPass ctx root { opts with pretty := pretty } ⟨{}, ids, w⟩
      = runPass ctx root opts ⟨{}, ids, w⟩ := by
  have hsite := site_eq_acts ctx root { opts with pretty := pretty } ids w
  rw [Context.acts_pretty] at hsite
  have hsame := hsite.trans (site_eq_acts ctx root opts ids w).symm
  rw [runPass, runPass, Pass.all, Pass.all, hsame]

/-- A session makes the same of a document in either layout, if the writer is the same. -/
theorem write_pretty (s : Session) (w : σ) :
    s.write ctx root { opts with pretty := pretty } w = s.write ctx root opts w := by
  have hcheck : ({ opts with pretty := pretty } : Options).check ctx root = opts.check ctx root := rfl
  rw [write, write, hcheck, runPass_pretty]

end Session

/-! ### Pretty and compact text -/

namespace TextWriter

/-- A pretty and a compact writer of one dialect, over sinks that take everything, are used alike. The
answers are the same, whatever is rejected on the way and wherever the uses end, and all that was
added to the pretty sink squeezes to all that was added to the compact one; so does what one more
command adds. The string literals are the same throughout. A document that is written with any
options into the one and into the other comes to the same and leaves the same session, and its pretty
text squeezes to its compact text. -/
theorem pretty_squeezes (d : Dialect) (a b : ByteArray) :
    (∀ uses : List (List Command),
      let w := Command.performEach uses
        ({ format := ⟨d, true⟩, sink := { bytes := a } } : TextWriter)
      let u := Command.performEach uses
        ({ format := ⟨d, false⟩, sink := { bytes := b } } : TextWriter)
      w.1 = u.1 ∧ SqueezesAfter a b w.2.sink.bytes u.2.sink.bytes ∧
      ∀ c : Command, (c.perform w.2).1 = (c.perform u.2).1 ∧
        SqueezesAfter w.2.sink.bytes u.2.sink.bytes
          (c.perform w.2).2.sink.bytes (c.perform u.2).2.sink.bytes) ∧
    (∀ (ctx : Context) (root : DeclId) (opts : Options) (s : Session),
      let pretty : Options := { opts with dialect := d, pretty := true }
      let compact : Options := { opts with dialect := d, pretty := false }
      let w := s.write ctx root pretty
        ({ format := pretty.textFormat, sink := { bytes := a } } : TextWriter)
      let u := s.write ctx root compact
        ({ format := compact.textFormat, sink := { bytes := b } } : TextWriter)
      w.1 = u.1 ∧ w.2.1 = u.2.1 ∧ SqueezesAfter a b w.2.2.sink.bytes u.2.2.sink.bytes) := by
  have hfresh := Beside.fresh d a b
  constructor
  · intro uses
    obtain ⟨hanswers, hbeside⟩ := (Beside.lockstep d a b).performEach uses hfresh
    refine ⟨hanswers, hbeside.squeezesAfter, fun c => ?_⟩
    have hadds := hbeside.same.adds c
    exact ⟨hadds.answer, hadds.squeezesAfter⟩
  · intro ctx root opts s pretty compact
    obtain ⟨hresult, hsession, hbeside⟩ :=
      (Beside.lockstep d a b).write ctx root { opts with dialect := d } s hfresh
    have hpretty := s.write_pretty ctx root { opts with dialect := d } true
      ({ format := ⟨d, true⟩, sink := { bytes := a } } : TextWriter)
    have hcompact := s.write_pretty ctx root { opts with dialect := d } false
      ({ format := ⟨d, false⟩, sink := { bytes := b } } : TextWriter)
    rw [← hpretty, ← hcompact] at hresult hsession hbeside
    exact ⟨hresult, hsession, hbeside.squeezesAfter⟩

/-- Blanks inside of a literal stay. -/
example : squeeze "\x7b\n  \"a \\\" b\": [\n    1\n  ]\n\x7d\n" = "\x7b\"a \\\" b\":[1]\x7d" := by
  decide +kernel

end TextWriter

end SyntaxExport
