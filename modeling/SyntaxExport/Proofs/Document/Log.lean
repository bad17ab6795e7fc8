import SyntaxExport.Proofs.Document.Complete

/-!
# Recorded documents

The log of the tokens of a document folds to that document (`Value.ofEvents?_tokens`), so a recorder
into which a document was written gives it back (`Recorder.document?_of_performs`).
-/

namespace SyntaxExport

namespace Fold

/-- Folds the log of calls. -/
def calls? (f : Fold) (cs : List Call) : Option Fold :=
  (cs.map Event.ofCall).foldlM step? f

theorem calls?_cons {f g : Fold} {c : Call} (h : f.step? (.ofCall c) = some g) (cs : List Call) :
    f.calls? (c :: cs) = g.calls? cs := by
  rw [calls?, List.map_cons, List.foldlM_cons, h]
  rfl

/-- A close hands the finished container to the one around it. -/
theorem calls?_close {f : Fold} {p : Pending} {v : Value} (h : p.build? = some v)
    (cs : List Call) : ({ f with pending := p :: f.pending } : Fold).calls? (.close :: cs)
      = (f.accept? v).bind (calls? · cs) := by
  have hstep : ({ f with pending := p :: f.pending } : Fold).step? .close = f.accept? v := by
    simp [step?, h]
  rw [calls?, List.map_cons, List.foldlM_cons]
  exact congrArg (fun g : Option Fold => g.bind _) hstep

mutual

/-- The log of the tokens of a document hands over that document. -/
theorem calls?_tokensAppend : ∀ (d : Value) (rest : List Call) (f : Fold),
    f.calls? (d.tokensAppend rest) = (f.accept? d).bind (calls? · rest)
  | .leaf x, rest, f => rfl
  | .object fs, rest, f => by
    rw [Tree.tokensAppend, calls?_cons (g := { f with pending := .object [] none :: f.pending }) rfl,
      calls?_fieldTokens fs, calls?_close (v := .object fs)]
    rw [Pending.build?, List.append_nil, List.reverse_reverse]
  | .array ts, rest, f => by
    rw [Tree.tokensAppend, calls?_cons (g := { f with pending := .array [] :: f.pending }) rfl,
      calls?_itemTokens ts .array (fun _ _ => rfl), calls?_close (v := .array ts)]
    rw [Pending.build?, List.append_nil, List.reverse_reverse]
  | .tuple ts, rest, f => by
    rw [Tree.tokensAppend, calls?_cons (g := { f with pending := .tuple [] :: f.pending }) rfl,
      calls?_itemTokens ts .tuple (fun _ _ => rfl), calls?_close (v := .tuple ts)]
    rw [Pending.build?, List.append_nil, List.reverse_reverse]
  | .variant tag d, rest, f => by
    rw [Tree.tokensAppend,
      calls?_cons (g := { f with pending := .variant tag none :: f.pending }) rfl,
      calls?_tokensAppend d]
    exact calls?_close (p := .variant tag (some d)) rfl rest

theorem calls?_fieldTokens : ∀ (fs : List (String × Value)) {rest : List Call} {f : Fold}
    {done : List (String × Value)},
    ({ f with pending := .object done none :: f.pending } : Fold).calls? (Tree.fieldTokens fs rest)
      = ({ f with pending := .object (fs.reverse ++ done) none :: f.pending } : Fold).calls? rest
  | [], _, _, _ => rfl
  | (name, d) :: fs, rest, f, done => by
    rw [Tree.fieldTokens,
      calls?_cons (g := { f with pending := .object done (some name) :: f.pending }) rfl,
      calls?_tokensAppend d, List.reverse_cons, List.append_assoc]
    exact calls?_fieldTokens fs

/-- The elements of a container that takes one after the other. -/
theorem calls?_itemTokens : ∀ (ts : List Value) (pend : List Value → Pending)
    (_ : ∀ done v, (pend done).push? v = some (pend (v :: done))) {rest : List Call} {f : Fold}
    {done : List Value},
    ({ f with pending := pend done :: f.pending } : Fold).calls? (Tree.itemTokens ts rest)
      = ({ f with pending := pend (ts.reverse ++ done) :: f.pending } : Fold).calls? rest
  | [], _, _, _, _, _ => rfl
  | d :: ts, pend, hpend, rest, f, done => by
    have haccept : ({ f with pending := pend done :: f.pending } : Fold).accept? d
        = some { f with pending := pend (d :: done) :: f.pending } := by
      simp [accept?, hpend]
    rw [Tree.itemTokens, calls?_tokensAppend d, haccept, List.reverse_cons, List.append_assoc]
    exact calls?_itemTokens ts pend hpend

end

end Fold

/-- The log of the tokens of a document folds to that document. -/
theorem Value.ofEvents?_tokens (d : Value) : Value.ofEvents? (d.tokens.map Event.ofCall) = some d := by
  have h := Fold.calls?_tokensAppend d [] {}
  rw [Fold.calls?] at h
  rw [Value.ofEvents?, Tree.tokens, h]
  rfl

/-! ### Recorders -/

namespace Recorder

/-- Accepted calls are logged in order. -/
theorem events_of_performs : ∀ {calls : List Call} {r r' : Recorder}, Performs calls r r' →
    r'.events.toList = r.events.toList ++ calls.map Event.ofCall
  | [], r, r', h => by
    obtain rfl : r = r' := congrArg Prod.snd h
    simp
  | c :: calls, r, r', h => by
    obtain ⟨r₁, hc, h⟩ := h.of_cons
    have hlog : r₁.events = r.events.push (.ofCall c) := by
      change Recorder.call c r = _ at hc
      rw [call] at hc
      split at hc
      · cases congrArg Prod.fst hc
      · exact congrArg events (congrArg Prod.snd hc).symm
    rw [events_of_performs h, hlog]
    simp

/-- The end of a document is not logged. -/
theorem events_finish (r : Recorder) : (DocumentWriter.finish r).2.events = r.events := by
  change (Recorder.finish r).2.events = r.events
  rw [finish]
  split <;> rfl

/-- The log of a document that was written into a fresh recorder has its calls. -/
theorem events_of_document {calls : List Call} {r r' : Recorder} (h : Performs calls {} r)
    (hfinish : DocumentWriter.finish r = (.ok (), r')) :
    r'.events.toList = calls.map Event.ofCall := by
  have hend := events_finish r
  rw [hfinish] at hend
  rw [hend, events_of_performs h]
  rfl

/-- A document written into a fresh recorder is the recorded one. -/
theorem document?_of_performs {d : Value} {r r' : Recorder} (h : Performs d.tokens {} r)
    (hfinish : r.finish = (.ok (), r')) : r'.document? = some d := by
  have hevents := events_of_performs h
  rw [finish] at hfinish
  split at hfinish
  · cases congrArg Prod.fst hfinish
  · next scopes hs =>
    obtain rfl := congrArg Prod.snd hfinish
    have hframes : scopes.isFinished = true := by
      grind [ScopeStack.finish, ScopeStack.isFinished]
    rw [document?, isFinished, if_pos hframes, hevents]
    exact Value.ofEvents?_tokens d

end Recorder

end SyntaxExport
