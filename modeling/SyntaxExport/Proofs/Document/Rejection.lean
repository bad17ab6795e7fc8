import SyntaxExport.Proofs.Document.Complete
import SyntaxExport.Proofs.Document.InPlace

/-!
# Rejected requests

A request that is rejected for another reason than I/O leaves everything as it was: the open scopes and
their pending tags, the log and the depths of a recorder, the indentation of a text writer and the bytes
in its sink. So the rejected requests of a run can be deleted. What remains is accepted throughout and
comes to the same state (`rejected_requests_leave_no_trace`).

The requests are programs on a mutable state, where an operation that changed something before its last
check, or a request of two calls, could well leave something behind.
-/

namespace SyntaxExport

open InPlace

/-! ### Runs of requests -/

section Runs

variable {ρ σ : Type} (run : ρ → InPlace σ Unit)

/-- The answers to requests made one after the other, also after some are rejected, and the state after
the last. -/
def InPlace.each : List ρ → σ → List (Except WriteError Unit) × σ
  | [], s => ([], s)
  | q :: qs, s =>
    ((exec (run q) s).1 :: (each qs (exec (run q) s).2).1, (each qs (exec (run q) s).2).2)

/-- The requests without those that are rejected, by the answers to them. -/
def InPlace.accepted : List ρ → List (Except WriteError Unit) → List ρ
  | q :: qs, .ok () :: answers => q :: accepted qs answers
  | _ :: qs, .error _ :: answers => accepted qs answers
  | _, _ => []

/-- Rejected requests leave no trace in the states of a program; where a state is `Unfailing`, no
request fails for I/O. -/
structure NoTrace (Unfailing : σ → Prop) : Prop where
  unchanged : ∀ (q : ρ) (s s' : σ) (e : WriteError), (run q).exec s = (.error e, s') → e ≠ .io → s' = s
  unfailing : ∀ (qs : List ρ) (s : σ), Unfailing s → .error .io ∉ (each run qs s).1
  /-- Without the rejected requests, all are accepted and come to the same state. -/
  deleted : ∀ (qs : List ρ) (s : σ), .error .io ∉ (each run qs s).1 →
    each run (accepted qs (each run qs s).1) s
      = (List.replicate (accepted qs (each run qs s).1).length (.ok ()), (each run qs s).2)

variable {run}

theorem InPlace.each_accepted (hunchanged : ∀ (q : ρ) (s s' : σ) (e : WriteError),
      (run q).exec s = (.error e, s') → e ≠ .io → s' = s) :
    ∀ (qs : List ρ) (s : σ), .error .io ∉ (each run qs s).1 →
      each run (accepted qs (each run qs s).1) s
        = (List.replicate (accepted qs (each run qs s).1).length (.ok ()), (each run qs s).2)
  | [], _, _ => rfl
  | q :: qs, s, hio => by
    rw [each, List.mem_cons, not_or] at hio
    obtain ⟨hne, hrest⟩ := hio
    rw [each]
    cases hq : (run q).exec s with
    | mk answer s₁ =>
      rw [hq] at hne hrest
      cases answer with
      | ok =>
        dsimp only [accepted] at hrest ⊢
        rw [each, hq, each_accepted hunchanged qs s₁ hrest]
        rfl
      | error e =>
        -- the state is that before the request, so the rest may start from there
        obtain rfl : s₁ = s := hunchanged q s s₁ e hq fun he => hne (he ▸ rfl)
        exact each_accepted hunchanged qs s₁ hrest

/-- No request fails for I/O where none does in an unfailing state and the state stays unfailing. -/
theorem InPlace.io_notMem_each {Unfailing : σ → Prop} (hstep : ∀ (q : ρ) (s : σ), Unfailing s →
      (exec (run q) s).1 ≠ .error .io ∧ Unfailing (exec (run q) s).2) :
    ∀ (qs : List ρ) (s : σ), Unfailing s → .error .io ∉ (each run qs s).1
  | [], _, _ => List.not_mem_nil
  | q :: qs, s, hs => by
    obtain ⟨hanswer, hnext⟩ := hstep q s hs
    rw [each, List.mem_cons, not_or]
    exact ⟨hanswer.symm, io_notMem_each hstep qs _ hnext⟩

theorem NoTrace.intro {Unfailing : σ → Prop} (hunchanged : ∀ (q : ρ) (s s' : σ) (e : WriteError),
      (run q).exec s = (.error e, s') → e ≠ .io → s' = s)
    (hstep : ∀ (q : ρ) (s : σ), Unfailing s →
      (exec (run q) s).1 ≠ .error .io ∧ Unfailing (exec (run q) s).2) : NoTrace run Unfailing :=
  ⟨hunchanged, io_notMem_each hstep, each_accepted hunchanged⟩

end Runs

/-! ### Operations on scopes -/

namespace ScopeStack

/-- The operations on scopes. -/
inductive Operation where
  | tag
  | value
  | enter (kind : ScopeKind) (arity : Nat)
  | close
  | finish
  deriving DecidableEq, Repr

/-- The scopes after an operation. -/
def Operation.apply (s : ScopeStack) : Operation → Except WriteError ScopeStack
  | .tag => (·.2) <$> s.tag
  | .value => (·.2) <$> s.value
  | .enter kind arity => (·.2) <$> s.enter kind arity
  | .close => (·.2) <$> s.close
  | .finish => s.finish

def Operation.inPlace : Operation → InPlace ScopeStack Unit
  | .tag => ignore tagInPlace
  | .value => ignore valueInPlace
  | .enter kind arity => ignore (enterInPlace kind arity)
  | .close => ignore closeInPlace
  | .finish => finishInPlace

theorem Operation.exec_inPlace (o : Operation) (s : ScopeStack) :
    o.inPlace.exec s = s.outcome (((), ·) <$> o.apply s) := by
  cases o with
  | tag => exact exec_ignore (exec_tagInPlace s)
  | value => exact exec_ignore (exec_valueInPlace s)
  | enter kind arity => exact exec_ignore (exec_enterInPlace kind arity s)
  | close => exact exec_ignore (exec_closeInPlace s)
  | finish => exact exec_finishInPlace s

/-- Forgetting a result keeps an error. -/
theorem map_ne_error {α β : Type} {x : Except WriteError α} {e : WriteError} (h : x ≠ .error e)
    (f : α → β) : f <$> x ≠ .error e := by
  cases x with
  | error e' => exact fun he => h (congrArg _ (Except.error.inj he))
  | ok a => nofun

theorem value_ne_io (s : ScopeStack) : s.value ≠ .error .io := by
  grind [ScopeStack.value]

/-- Scopes have no I/O. -/
theorem Operation.apply_ne_io (o : Operation) (s : ScopeStack) : o.apply s ≠ .error .io := by
  cases o with
  | tag => exact map_ne_error (by grind [ScopeStack.tag]) _
  | value => exact map_ne_error (value_ne_io s) _
  | enter kind arity => exact map_ne_error (by grind [ScopeStack.enter, value_ne_io]) _
  | close => exact map_ne_error (by grind [ScopeStack.close]) _
  | finish => grind [apply, ScopeStack.finish]

theorem account_ne_io (s : ScopeStack) (c : Call) : s.account c ≠ .error .io := by
  cases c with
  | container shape arity => exact Operation.apply_ne_io (.enter shape.scope arity) s
  | variant tag => exact Operation.apply_ne_io (.enter .variant 1) s
  | close => exact Operation.apply_ne_io .close s
  | tag name => exact Operation.apply_ne_io .tag s
  | leaf x => exact Operation.apply_ne_io .value s

theorem noTrace : NoTrace Operation.inPlace fun _ => True := by
  refine .intro (fun o s s' e h _ => ?_) fun o s _ => ⟨fun h => ?_, trivial⟩
  · rw [o.exec_inPlace] at h
    cases ho : o.apply s with
    | error e' =>
      rw [ho] at h
      exact (congrArg Prod.snd h).symm
    | ok t =>
      rw [ho] at h
      cases congrArg Prod.fst h
  · rw [o.exec_inPlace] at h
    cases ho : o.apply s with
    | error e =>
      rw [ho] at h
      exact o.apply_ne_io s (ho.trans (congrArg _ (Except.error.inj h)))
    | ok t =>
      rw [ho] at h
      cases h

end ScopeStack

/-! ### Writers -/

/-- A request of a writer: a call, a flag or the end of the document. -/
inductive Request where
  | call (c : Call)
  | flag (name : String) (value : Bool)
  | finish
  deriving DecidableEq, Repr

def Request.commands : Request → List Command
  | .call c => [.call c]
  | .flag name value => Command.flag name value
  | .finish => [.finish]

/-- Writers whose calls are programs on a mutable state. -/
class WriterInPlace (σ : Type) extends ScopedWriter σ where
  callInPlace : Call → InPlace σ Unit
  finishInPlace : InPlace σ Unit
  exec_call (c : Call) (w : σ) : (callInPlace c).exec w = call c w
  exec_finish (w : σ) : finishInPlace.exec w = finish w
  /-- What the scopes accept fails for nothing but I/O, and the scopes go on all the same. -/
  call_accepted {w : σ} {c : Call} {s : ScopeStack} : (scopes w).account c = .ok s →
    ∃ w', scopes w' = s ∧ (call c w = (.ok (), w') ∨ call c w = (.error .io, w'))
  finish_accepted {w : σ} {s : ScopeStack} : (scopes w).finish = .ok s →
    ∃ w', finish w = (.ok (), w') ∨ finish w = (.error .io, w')
  /-- The end of a document is not the end of a reliable state. -/
  reliable_finish {w : σ} : Reliable w → Reliable (finish w).2

instance : WriterInPlace Recorder where
  callInPlace := Recorder.callInPlace
  finishInPlace := Recorder.finishInPlace
  exec_call := Recorder.exec_callInPlace
  exec_finish := Recorder.exec_finishInPlace
  call_accepted h :=
    let ⟨w', hcall, hscopes, _⟩ := ScopedWriter.call_ok trivial h
    ⟨w', hscopes, .inl hcall⟩
  finish_accepted h :=
    let ⟨w', hfinish, _⟩ := ScopedWriter.finish_ok trivial h
    ⟨w', .inl hfinish⟩
  reliable_finish _ := trivial

namespace TextWriter

theorem call_accepted {w : TextWriter} {c : Call} {s : ScopeStack}
    (h : w.state.scopes.account c = .ok s) : ∃ w', w'.state.scopes = s ∧
      (w.call c = (.ok (), w') ∨ w.call c = (.error .io, w')) := by
  rw [← TextState.call_eq w.format] at h
  obtain ⟨text, state, htext, rfl⟩ := TextState.exists_text h
  rw [call, htext]
  dsimp only
  split
  · exact ⟨_, rfl, .inl rfl⟩
  · exact ⟨_, rfl, .inr rfl⟩

theorem finish_accepted {w : TextWriter} {s : ScopeStack} (h : w.state.scopes.finish = .ok s) :
    ∃ w', w.finish = (.ok (), w') ∨ w.finish = (.error .io, w') := by
  rw [← TextState.finish_eq w.format] at h
  obtain ⟨text, state, htext, -⟩ := TextState.exists_text h
  rw [finish, htext]
  dsimp only
  split
  · exact ⟨_, .inl rfl⟩
  · exact ⟨_, .inr rfl⟩

theorem reliable_finish {w : TextWriter} (h : ScopedWriter.Reliable w) :
    ScopedWriter.Reliable w.finish.2 := by
  rw [finish]
  cases hfinish : w.state.finish w.format with
  | error e => exact h
  | ok x =>
    dsimp only
    rw [Sink.write_eq_of_unlimited h.1]
    exact h

instance : WriterInPlace TextWriter where
  callInPlace := callInPlace
  finishInPlace := finishInPlace
  exec_call := exec_callInPlace
  exec_finish := exec_finishInPlace
  call_accepted := call_accepted
  finish_accepted := finish_accepted
  reliable_finish := reliable_finish

end TextWriter

namespace Request

variable {σ : Type} [WriterInPlace σ]

def inPlace : Request → InPlace σ Unit
  | .call c => WriterInPlace.callInPlace c
  | .flag name value => whenever value do
    WriterInPlace.callInPlace (.tag name)
    WriterInPlace.callInPlace (.leaf (.boolean true))
  | .finish => WriterInPlace.finishInPlace

/-- A request is its commands one after the other. -/
theorem exec_inPlace (q : Request) (w : σ) : q.inPlace.exec w = Command.performAll q.commands w := by
  cases q with
  | call c =>
    rw [inPlace, WriterInPlace.exec_call, commands, Command.performAll_singleton]
    rfl
  | finish =>
    rw [inPlace, WriterInPlace.exec_finish, commands, Command.performAll_singleton]
    rfl
  | flag name value =>
    cases value with
    | false => rfl
    | true =>
      rw [inPlace, whenever, if_pos rfl, exec_bind, WriterInPlace.exec_call, commands, Command.flag,
        if_pos rfl, Command.performAll, Command.perform]
      rcases DocumentWriter.call (.tag name) w with ⟨_ | _, w₁⟩
      · rfl
      · exact (WriterInPlace.exec_call _ w₁).trans
          (Command.performAll_singleton (.call (.leaf (.boolean true))) w₁).symm

/-- A call that is rejected for another reason than I/O is rejected by the scopes. -/
theorem of_call_error {c : Call} {w w' : σ} {e : WriteError}
    (h : DocumentWriter.call c w = (.error e, w')) (he : e ≠ .io) :
    w' = w ∧ (ScopedWriter.scopes w).account c = .error e := by
  cases hc : (ScopedWriter.scopes w).account c with
  | error e' =>
    cases (ScopedWriter.call_error hc).symm.trans h
    exact ⟨rfl, rfl⟩
  | ok s =>
    obtain ⟨w₁, -, hcall | hcall⟩ := WriterInPlace.call_accepted hc
    · cases hcall.symm.trans h
    · cases hcall.symm.trans h
      exact absurd rfl he

theorem account_of_call_ok {c : Call} {w w' : σ} (h : DocumentWriter.call c w = (.ok (), w')) :
    (ScopedWriter.scopes w).account c = .ok (ScopedWriter.scopes w') := by
  cases hc : (ScopedWriter.scopes w).account c with
  | error e => cases (ScopedWriter.call_error hc).symm.trans h
  | ok s =>
    obtain ⟨w₁, rfl, hcall | hcall⟩ := WriterInPlace.call_accepted hc
    · cases hcall.symm.trans h
      rfl
    · cases hcall.symm.trans h

/-- After a field tag the scopes accept a scalar. -/
theorem account_leaf_of_tag {s t : ScopeStack} {name : String}
    (h : s.account (.tag name : Call) = .ok t) (x : Scalar) : ∃ u, t.account (.leaf x) = .ok u := by
  obtain ⟨_ | ⟨f, outer⟩⟩ := s
  · cases h
  · obtain ⟨hkind, hf, rfl⟩ := ScopeStack.of_account_tag h
    exact ⟨_, ScopeStack.account_leaf (ScopeStack.value_of_tagged hkind hf outer) x⟩

theorem unchanged (q : Request) (w w' : σ) (e : WriteError) (h : q.inPlace.exec w = (.error e, w'))
    (he : e ≠ .io) : w' = w := by
  cases q with
  | call c =>
    rw [inPlace, WriterInPlace.exec_call] at h
    exact (of_call_error h he).1
  | finish =>
    rw [inPlace, WriterInPlace.exec_finish] at h
    cases hfinish : (ScopedWriter.scopes w).finish with
    | error e' =>
      cases (ScopedWriter.finish_error hfinish).symm.trans h
      rfl
    | ok s =>
      obtain ⟨w₁, hcall | hcall⟩ := WriterInPlace.finish_accepted hfinish
      · cases hcall.symm.trans h
      · cases hcall.symm.trans h
        exact absurd rfl he
  | flag name value =>
    cases value with
    | false => cases h
    | true =>
      rw [inPlace, whenever, if_pos rfl, exec_bind, WriterInPlace.exec_call] at h
      rcases htag : DocumentWriter.call (.tag name) w with ⟨e₁ | _, w₁⟩
      · rw [htag] at h
        cases h
        exact (of_call_error htag he).1
      · -- a scalar follows, which the scopes accept
        rw [htag] at h
        have hleaf := (WriterInPlace.exec_call (.leaf (.boolean true)) w₁).symm.trans h
        obtain ⟨u, hu⟩ := account_leaf_of_tag (account_of_call_ok htag) (.boolean true)
        cases hu.symm.trans (of_call_error hleaf he).2

/-- A reliable writer stays reliable and has no I/O failure. -/
theorem reliable_call {w : σ} (hw : ScopedWriter.Reliable w) (c : Call) :
    (DocumentWriter.call c w).1 ≠ .error .io ∧ ScopedWriter.Reliable (DocumentWriter.call c w).2 := by
  cases hc : (ScopedWriter.scopes w).account c with
  | error e =>
    rw [ScopedWriter.call_error hc]
    exact ⟨fun h => ScopeStack.account_ne_io _ c (hc.trans (congrArg _ (Except.error.inj h))), hw⟩
  | ok s =>
    obtain ⟨w', hcall, -, hw'⟩ := ScopedWriter.call_ok hw hc
    rw [hcall]
    exact ⟨nofun, hw'⟩

theorem reliable_inPlace (q : Request) (w : σ) (hw : ScopedWriter.Reliable w) :
    (exec q.inPlace w).1 ≠ .error .io ∧ ScopedWriter.Reliable (exec q.inPlace w).2 := by
  cases q with
  | call c =>
    rw [inPlace, WriterInPlace.exec_call]
    exact reliable_call hw c
  | finish =>
    rw [inPlace, WriterInPlace.exec_finish]
    refine ⟨fun h => ?_, WriterInPlace.reliable_finish hw⟩
    cases hfinish : (ScopedWriter.scopes w).finish with
    | error e =>
      rw [ScopedWriter.finish_error hfinish] at h
      exact ScopeStack.Operation.apply_ne_io .finish _
        (hfinish.trans (congrArg _ (Except.error.inj h)))
    | ok s =>
      obtain ⟨w', hcall, -⟩ := ScopedWriter.finish_ok hw hfinish
      rw [hcall] at h
      cases h
  | flag name value =>
    cases value with
    | false => exact ⟨nofun, hw⟩
    | true =>
      have htag := reliable_call hw (.tag name)
      rw [inPlace, whenever, if_pos rfl, exec_bind, WriterInPlace.exec_call]
      rcases hcall : DocumentWriter.call (.tag name) w with ⟨e | _, w₁⟩
      · rw [hcall] at htag
        exact ⟨fun h => htag.1 (congrArg _ (Except.error.inj h)), htag.2⟩
      · rw [hcall] at htag
        dsimp only
        rw [WriterInPlace.exec_call]
        exact reliable_call htag.2 _

theorem noTrace : NoTrace (inPlace : Request → InPlace σ Unit) ScopedWriter.Reliable :=
  .intro unchanged reliable_inPlace

end Request

/-- A request that scopes, a recorder or a text writer reject for another reason than I/O changes
nothing of their state, down to the bytes in the sink. Hence the rejected requests of a run in which
nothing fails for I/O can be deleted: the others are all accepted and come to the same state, with the
same log and the same text. Nothing fails for I/O in a sink that takes everything. -/
theorem rejected_requests_leave_no_trace :
    NoTrace ScopeStack.Operation.inPlace (fun _ => True) ∧
    NoTrace (Request.inPlace : Request → InPlace Recorder Unit) (fun _ => True) ∧
    NoTrace (Request.inPlace : Request → InPlace TextWriter Unit)
      (fun w => w.sink.capacity = none ∧ w.sink.flushFails = false) :=
  ⟨ScopeStack.noTrace, Request.noTrace, Request.noTrace⟩

/-- An object of one field refuses a value without a tag, a second field and the end of the document. -/
example : (each (Request.inPlace : Request → InPlace TextWriter Unit)
    [.call (.container .object 1), .call (.leaf (.integer 1)), .flag "a" true, .flag "b" true,
      .finish, .call .close, .finish, .finish] {}).1
    = [.ok (), .error .missingTag, .ok (), .error (.overflow .object 1), .error (.unclosed 1), .ok (),
      .ok (), .error .finished] := by
  rfl

end SyntaxExport
