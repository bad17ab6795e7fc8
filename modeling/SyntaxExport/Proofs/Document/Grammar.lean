import SyntaxExport.Proofs.Document.Log

/-!
# The calls that writers accept

Up to the end of the document a fresh writer accepts the tokens of documents and nothing else
(`ScopedWriter.accepts_iff_tokens`). The declared sizes are part of the tokens, so a document has one
list of calls and a list of calls has at most one document, which is the one that a recorder keeps
(`Recorder.accepts_iff_document`).
-/

namespace SyntaxExport

open ScopedWriter (scopes Reliable)

/-- Different documents have different tokens. -/
theorem Value.tokens_injective {v v' : Value} (h : v.tokens = v'.tokens) : v = v' := by
  have hv : Value.ofEvents? (v.tokens.map Event.ofCall) = some v := Value.ofEvents?_tokens v
  have hv' : Value.ofEvents? (v'.tokens.map Event.ofCall) = some v' := Value.ofEvents?_tokens v'
  rw [h, hv'] at hv
  exact (Option.some.inj hv).symm

namespace ScopedWriter

variable {σ : Type} [ScopedWriter σ] {w : σ}

/-- Where a writer takes one value, it takes the calls of a document up to its end. -/
theorem exists_performs_tokens (hw : Reliable w) (hfresh : scopes w = {}) (v : Value) :
    ∃ w₁ w', Performs v.tokens w w₁ ∧ DocumentWriter.finish w₁ = (.ok (), w') := by
  have hvalue := ScopedWriter.value_of_fresh hfresh
  obtain ⟨w₁, hcalls, hs, hw₁⟩ := performs_of_accountAll hw (ScopeStack.accountAll_tokens v hvalue)
  have hend : (scopes w₁).finish = .ok ⟨[]⟩ := by
    rw [hs]
    rfl
  obtain ⟨w', hfinish, -⟩ := finish_ok hw₁ hend
  exact ⟨w₁, w', hcalls, hfinish⟩

/-- Calls that are accepted up to the end of the document are the tokens of a document. -/
theorem exists_tokens_of_performAll (hw : Reliable w) (hfresh : scopes w = {}) {calls : List Call}
    (h : (Command.performAll (calls.map .call ++ [.finish]) w).1 = .ok ()) :
    ∃ v : Value, calls = v.tokens := by
  have hall : Command.performAll (calls.map .call ++ [.finish]) w
      = (.ok (), (Command.performAll (calls.map .call ++ [.finish]) w).2) := Prod.ext h rfl
  obtain ⟨calls', w₁, hcalls, hperforms, hfinish⟩ := exists_calls hw hall
  obtain rfl : calls = calls' := (List.map_inj_right fun _ _ => Command.call.inj).mp hcalls
  obtain ⟨haccount, hw₁⟩ := accountAll_of_performs hw hperforms
  rw [hfresh] at haccount
  exact ScopeStack.exists_tokens haccount (finish_of_finish hw₁ hfinish)

/-- Up to the end of the document a fresh writer accepts the tokens of documents and nothing else. -/
theorem accepts_iff_tokens (hw : Reliable w) (hfresh : scopes w = {}) (calls : List Call) :
    (Command.performAll (calls.map .call ++ [.finish]) w).1 = .ok ()
      ↔ ∃ v : Value, calls = v.tokens := by
  constructor
  · exact exists_tokens_of_performAll hw hfresh
  · rintro ⟨v, rfl⟩
    obtain ⟨w₁, w', hcalls, hfinish⟩ := exists_performs_tokens hw hfresh v
    rw [hcalls.append_finish hfinish]

end ScopedWriter

namespace Recorder

/-- A recorder accepts calls and the end of the document after them exactly where the calls are the
tokens of a document. There is then one such document, the recorder gives it back, and the log is the
list of its tokens. -/
theorem accepts_iff_document (calls : List Call) :
    ((Command.performAll (calls.map .call ++ [.finish]) ({} : Recorder)).1 = .ok ()
      ↔ ∃ v : Value, calls = v.tokens) ∧
    ∀ v : Value, calls = v.tokens →
      (∀ v' : Value, calls = v'.tokens → v' = v) ∧
      ∃ r : Recorder,
        Command.performAll (calls.map .call ++ [.finish]) ({} : Recorder) = (.ok (), r) ∧
        r.document? = some v ∧ r.events.toList = v.tokens.map Event.ofCall := by
  have hfresh : scopes ({} : Recorder) = {} := rfl
  refine ⟨ScopedWriter.accepts_iff_tokens trivial hfresh calls, ?_⟩
  rintro v rfl
  refine ⟨fun v' h => (Value.tokens_injective h).symm, ?_⟩
  obtain ⟨r₁, r, hcalls, hfinish⟩ :=
    ScopedWriter.exists_performs_tokens (w := ({} : Recorder)) trivial hfresh v
  refine ⟨r, hcalls.append_finish hfinish, document?_of_performs hcalls hfinish, ?_⟩
  have hlog : r.events = r₁.events := by
    rw [← events_finish r₁, hfinish]
  rw [hlog, events_of_performs hcalls]
  rfl

/-- An object that declares one field and has one. -/
theorem accepts_iff_document_object : ∃ r : Recorder,
    Command.performAll
      (([.container .object 1, .tag "name", .leaf (.string "f"), .close] : List Call).map .call
        ++ [.finish]) ({} : Recorder) = (.ok (), r) ∧
    r.document? = some (.object [("name", .leaf (.string "f"))]) := by
  obtain ⟨-, hdocument⟩ :=
    accepts_iff_document [.container .object 1, .tag "name", .leaf (.string "f"), .close]
  obtain ⟨-, r, hr, hv, -⟩ := hdocument (.object [("name", .leaf (.string "f"))]) rfl
  exact ⟨r, hr, hv⟩

end Recorder

end SyntaxExport
