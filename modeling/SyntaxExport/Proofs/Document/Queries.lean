import SyntaxExport.Proofs.Document.Folding
import SyntaxExport.Proofs.Document.Lockstep

/-!
# Queries of recorded documents

A recorder answers two queries without building its document: the strings behind the tags of a name,
from pairs of neighbours in its log, and the deepest nesting, from a counter. Both answers are those of
the document (`Recorder.queries_of_finished`), whatever commands were rejected on the way to it.

The tokens of a tree are read with what stands behind them, so that what holds of a part can be used
where the part stands: the strings of a part come before those of the rest (`strings_tokensAppend`), and
a part leaves the depth as it was and the counter not below its own height (`depths_tokensAppend`).
-/

namespace SyntaxExport

open ScopedWriter (scopes Reliable)

/-! ### Trees -/

namespace Tree

variable {α : Type}

mutual

/-- The fields of all objects of a tree, in document order: a field comes before those inside of it. -/
def fields : Tree α → List (String × Tree α)
  | .leaf _ => []
  | .object fs => fieldFields fs
  | .array ts | .tuple ts => itemFields ts
  | .variant _ t => t.fields

/-- The fields of an object, each with those inside of it. -/
def fieldFields : List (String × Tree α) → List (String × Tree α)
  | [] => []
  | (name, t) :: fs => (name, t) :: (t.fields ++ fieldFields fs)

/-- The fields inside of the elements of an array or tuple. -/
def itemFields : List (Tree α) → List (String × Tree α)
  | [] => []
  | t :: ts => t.fields ++ itemFields ts

end

mutual

/-- The number of objects, arrays, tuples and variants on the longest way down a tree. -/
def height : Tree α → Nat
  | .leaf _ => 0
  | .object fs => fieldHeight fs + 1
  | .array ts | .tuple ts => itemHeight ts + 1
  | .variant _ t => t.height + 1

/-- The height of the highest field of an object. -/
def fieldHeight : List (String × Tree α) → Nat
  | [] => 0
  | (_, t) :: fs => max t.height (fieldHeight fs)

/-- The height of the highest element of an array or tuple. -/
def itemHeight : List (Tree α) → Nat
  | [] => 0
  | t :: ts => max t.height (itemHeight ts)

end

end Tree

/-! ### Strings of fields -/

/-- The strings that fields with a given name have as their values. -/
def Value.stringsOf (field : String) (fs : List (String × Value)) : List String :=
  (fs.filter (·.1 = field)).filterMap fun f => Value.string? f.2

namespace Value

variable (field : String)

theorem stringsOf_cons (name : String) (v : Value) (fs : List (String × Value)) :
    stringsOf field ((name, v) :: fs)
      = (if name = field then v.string?.toList else []) ++ stringsOf field fs := by
  by_cases h : name = field
  · cases hs : v.string? <;> simp [stringsOf, h, hs]
  · simp [stringsOf, h]

theorem stringsOf_append (fs gs : List (String × Value)) :
    stringsOf field (fs ++ gs) = stringsOf field fs ++ stringsOf field gs := by
  simp [stringsOf]

/-- The entry behind a tag is the first one of the value of the field, so a string there is the value. -/
theorem fieldStrings_tag (name : String) (v : Value) (rest : List Call) :
    Event.fieldStrings field (.tag name :: (v.tokensAppend rest).map Event.ofCall)
      = (if name = field then v.string?.toList else [])
        ++ Event.fieldStrings field ((v.tokensAppend rest).map Event.ofCall) := by
  by_cases h : name = field
  · cases v with
    | leaf x => cases x <;> simp [h, Tree.tokensAppend, Event.ofCall, Event.fieldStrings, string?]
    | object | array | tuple | variant =>
      simp [h, Tree.tokensAppend, Event.ofCall, Event.fieldStrings, string?]
  · cases v with
    | leaf x => cases x <;> simp [h, Tree.tokensAppend, Event.ofCall, Event.fieldStrings]
    | object | array | tuple | variant =>
      simp [h, Tree.tokensAppend, Event.ofCall, Event.fieldStrings]

mutual

theorem fieldStrings_tokensAppend : ∀ (v : Value) (rest : List Call),
    Event.fieldStrings field ((v.tokensAppend rest).map Event.ofCall)
      = stringsOf field v.fields ++ Event.fieldStrings field (rest.map Event.ofCall)
  | .leaf _, _ => rfl
  | .object fs, rest => fieldStrings_fieldTokens fs (.close :: rest)
  | .array ts, rest => fieldStrings_itemTokens ts (.close :: rest)
  | .tuple ts, rest => fieldStrings_itemTokens ts (.close :: rest)
  | .variant _ v, rest => fieldStrings_tokensAppend v (.close :: rest)

theorem fieldStrings_fieldTokens : ∀ (fs : List (String × Value)) (rest : List Call),
    Event.fieldStrings field ((Tree.fieldTokens fs rest).map Event.ofCall)
      = stringsOf field (Tree.fieldFields fs) ++ Event.fieldStrings field (rest.map Event.ofCall)
  | [], _ => rfl
  | (name, v) :: fs, rest => by
    have htag := fieldStrings_tag field name v (Tree.fieldTokens fs rest)
    rw [fieldStrings_tokensAppend v, fieldStrings_fieldTokens fs rest] at htag
    rw [Tree.fieldFields, stringsOf_cons, stringsOf_append, List.append_assoc, List.append_assoc]
    exact htag

theorem fieldStrings_itemTokens : ∀ (ts : List Value) (rest : List Call),
    Event.fieldStrings field ((Tree.itemTokens ts rest).map Event.ofCall)
      = stringsOf field (Tree.itemFields ts) ++ Event.fieldStrings field (rest.map Event.ofCall)
  | [], _ => rfl
  | v :: ts, rest => by
    rw [Tree.itemTokens, fieldStrings_tokensAppend v, fieldStrings_itemTokens ts rest,
      Tree.itemFields, stringsOf_append, List.append_assoc]

end

end Value

/-! ### Depths -/

/-- The depth and the deepest nesting after a call. -/
def Call.depths (d : Nat × Nat) (c : Call) : Nat × Nat :=
  (c.depthAfter d.1, max d.2 (c.depthAfter d.1))

/-- A close comes back from a depth that was counted. -/
theorem Call.depths_close {depth deepest : Nat} (h : depth + 1 ≤ deepest) (rest : List Call) :
    (.close :: rest : List Call).foldl depths (depth + 1, deepest)
      = rest.foldl depths (depth, deepest) := by
  have hmax : max deepest (depth + 1 - 1) = deepest := by omega
  rw [List.foldl_cons, depths, depthAfter, hmax, Nat.add_sub_cancel]

namespace Tree

/-- A scope is one higher than what is inside of it. -/
theorem depths_scope {inside rest : List Call} {depth deepest height : Nat}
    (h : inside.foldl Call.depths (depth + 1, max deepest (depth + 1))
      = (.close :: rest : List Call).foldl Call.depths
        (depth + 1, max (max deepest (depth + 1)) (depth + 1 + height))) :
    inside.foldl Call.depths (depth + 1, max deepest (depth + 1))
      = rest.foldl Call.depths (depth, max deepest (depth + (height + 1))) := by
  have hmax : max (max deepest (depth + 1)) (depth + 1 + height)
      = max deepest (depth + (height + 1)) := by
    omega
  rw [h, Call.depths_close (by omega), hmax]

mutual

/-- A tree leaves the depth as it was, and nests as deep as it is high. -/
theorem depths_tokensAppend : ∀ (t : Value) (rest : List Call) {depth deepest : Nat},
    depth ≤ deepest → (t.tokensAppend rest).foldl Call.depths (depth, deepest)
      = rest.foldl Call.depths (depth, max deepest (depth + t.height))
  | .leaf _, _, _, _, _ => rfl
  | .object fs, rest, _, _, _ =>
    depths_scope (depths_fieldTokens fs (.close :: rest) (Nat.le_max_right _ _))
  | .array ts, rest, _, _, _ =>
    depths_scope (depths_itemTokens ts (.close :: rest) (Nat.le_max_right _ _))
  | .tuple ts, rest, _, _, _ =>
    depths_scope (depths_itemTokens ts (.close :: rest) (Nat.le_max_right _ _))
  | .variant _ t, rest, _, _, _ =>
    depths_scope (depths_tokensAppend t (.close :: rest) (Nat.le_max_right _ _))

theorem depths_fieldTokens : ∀ (fs : List (String × Value)) (rest : List Call) {depth deepest : Nat},
    depth ≤ deepest → (fieldTokens fs rest).foldl Call.depths (depth, deepest)
      = rest.foldl Call.depths (depth, max deepest (depth + fieldHeight fs))
  | [], _, depth, deepest, h => by
    have hmax : max deepest (depth + 0) = deepest := by omega
    rw [fieldTokens, fieldHeight, hmax]
  | (name, t) :: fs, rest, depth, deepest, h => by
    have htag : max deepest depth = deepest := by omega
    have hmax : max (max deepest (depth + t.height)) (depth + fieldHeight fs)
        = max deepest (depth + max t.height (fieldHeight fs)) := by
      omega
    rw [fieldTokens, List.foldl_cons, Call.depths, Call.depthAfter, htag, depths_tokensAppend t _ h,
      depths_fieldTokens fs rest (by omega), hmax, fieldHeight]

theorem depths_itemTokens : ∀ (ts : List Value) (rest : List Call) {depth deepest : Nat},
    depth ≤ deepest → (itemTokens ts rest).foldl Call.depths (depth, deepest)
      = rest.foldl Call.depths (depth, max deepest (depth + itemHeight ts))
  | [], _, depth, deepest, h => by
    have hmax : max deepest (depth + 0) = deepest := by omega
    rw [itemTokens, itemHeight, hmax]
  | t :: ts, rest, depth, deepest, h => by
    have hmax : max (max deepest (depth + t.height)) (depth + itemHeight ts)
        = max deepest (depth + max t.height (itemHeight ts)) := by
      omega
    rw [itemTokens, depths_tokensAppend t _ h, depths_itemTokens ts rest (by omega), hmax, itemHeight]

end

end Tree

/-! ### Recorders -/

/-- Where commands are carried out, all but the last are, and then the last. -/
theorem Command.performAll_append {σ : Type} [DocumentWriter σ] {w₁ : σ} (bs : List Command) :
    ∀ {as : List Command} {w : σ}, performAll as w = (.ok (), w₁) →
      performAll (as ++ bs) w = performAll bs w₁
  | [], w, h => by
    obtain rfl : w = w₁ := congrArg Prod.snd h
    rfl
  | a :: as, w, h => by
    obtain ⟨w', ha, has⟩ := exists_of_performAll_cons h
    rw [List.cons_append, performAll, ha]
    exact performAll_append bs has

namespace Recorder

/-- A rejected command changes nothing. -/
theorem perform_cases (c : Command) (r : Recorder) :
    (∃ r', c.perform r = (.ok (), r')) ∨ ∃ e, c.perform r = (.error e, r) := by
  cases c with
  | call c =>
    rw [Command.perform]
    change (∃ r', call c r = _) ∨ ∃ e, call c r = _
    rw [call]
    split
    · exact .inr ⟨_, rfl⟩
    · exact .inl ⟨_, rfl⟩
  | finish =>
    rw [Command.perform]
    change (∃ r', finish r = _) ∨ ∃ e, finish r = _
    rw [finish]
    split
    · exact .inr ⟨_, rfl⟩
    · exact .inl ⟨_, rfl⟩

/-- A use leaves a recorder where the accepted ones of its commands lead it. -/
theorem exists_accepted_of_use : ∀ (use : List Command) (r : Recorder), ∃ accepted,
    Command.performAll accepted r = (.ok (), (Command.performAll use r).2)
  | [], r => ⟨[], rfl⟩
  | c :: use, r => by
    rcases perform_cases c r with ⟨r', hc⟩ | ⟨e, hc⟩
    · obtain ⟨accepted, haccepted⟩ := exists_accepted_of_use use r'
      refine ⟨c :: accepted, ?_⟩
      rw [Command.performAll, Command.performAll, hc]
      exact haccepted
    · refine ⟨[], ?_⟩
      rw [Command.performAll, Command.performAll, hc]

/-- Uses leave a recorder where the accepted ones of their commands lead it. -/
theorem exists_accepted : ∀ (uses : List (List Command)) (r : Recorder), ∃ accepted,
    Command.performAll accepted r = (.ok (), (Command.performEach uses r).2)
  | [], r => ⟨[], rfl⟩
  | use :: uses, r => by
    obtain ⟨first, hfirst⟩ := exists_accepted_of_use use r
    obtain ⟨rest, hrest⟩ := exists_accepted uses (Command.performAll use r).2
    exact ⟨first ++ rest, (Command.performAll_append rest hfirst).trans hrest⟩

theorem isFinished_iff {r : Recorder} : r.isFinished = true ↔ r.scopes.frames = [] := by
  simp [isFinished, ScopeStack.isFinished]

/-- Commands that finish a recorder are calls up to the end of the document. -/
theorem exists_calls_of_finished : ∀ {commands : List Command} {r r' : Recorder},
    r.isFinished = false → r'.isFinished = true → Command.performAll commands r = (.ok (), r') →
    ∃ calls r₁, Performs calls r r₁ ∧ DocumentWriter.finish r₁ = (.ok (), r')
  | [], r, r', hr, hr', h => by
    obtain rfl : r = r' := congrArg Prod.snd h
    rw [hr] at hr'
    cases hr'
  | .call c :: commands, r, r', hr, hr', h => by
    obtain ⟨r₁, hc, h⟩ := Command.exists_of_performAll_cons h
    have hr₁ : r₁.isFinished = false := by
      have haccount := (ScopedWriter.account_of_call trivial hc).1
      have hframes := (ScopeStack.frames_ne_nil_of_account haccount).2
      exact Bool.eq_false_iff.mpr fun hfinished => hframes (isFinished_iff.mp hfinished)
    obtain ⟨calls, r₂, hcalls, hfinish⟩ := exists_calls_of_finished hr₁ hr' h
    exact ⟨c :: calls, r₂, .cons hc hcalls, hfinish⟩
  | .finish :: commands, r, r', hr, hr', h => by
    obtain ⟨r₁, hfinish, h⟩ := Command.exists_of_performAll_cons h
    have hr₁ : r₁.scopes.frames = [] := by
      have hscopes : (scopes r).finish = .ok (scopes r₁) :=
        ScopedWriter.finish_of_finish trivial hfinish
      have hframes : (scopes r₁).frames = [] := by grind [ScopeStack.finish]
      exact hframes
    cases commands with
    | nil =>
      obtain rfl : r₁ = r' := congrArg Prod.snd h
      exact ⟨[], r, .nil r, hfinish⟩
    | cons c commands =>
      obtain ⟨r₂, hc, -⟩ := Command.exists_of_performAll_cons h
      have hrejected := ScopedWriter.not_perform_of_finished (w := r₁) hr₁ c
      rw [hc] at hrejected
      cases hrejected

/-- A finished recorder was given the tokens of its document and then the end. -/
theorem exists_document_of_finished {uses : List (List Command)}
    (h : (Command.performEach uses ({} : Recorder)).2.isFinished = true) : ∃ (v : Value) (r₁ : Recorder),
      Performs v.tokens {} r₁
      ∧ DocumentWriter.finish r₁ = (.ok (), (Command.performEach uses ({} : Recorder)).2) := by
  obtain ⟨accepted, haccepted⟩ := exists_accepted uses {}
  obtain ⟨calls, r₁, hcalls, hfinish⟩ := exists_calls_of_finished rfl h haccepted
  obtain ⟨haccount, hr₁⟩ := ScopedWriter.accountAll_of_performs trivial hcalls
  obtain ⟨v, rfl⟩ := ScopeStack.exists_tokens haccount (ScopedWriter.finish_of_finish hr₁ hfinish)
  exact ⟨v, r₁, hcalls, hfinish⟩

/-- The followed depth and the deepest nesting after accepted calls. -/
theorem depths_of_performs : ∀ {calls : List Call} {r r' : Recorder}, Performs calls r r' →
    (r'.depth, r'.maxDepth) = calls.foldl Call.depths (r.depth, r.maxDepth)
  | [], r, r', h => by
    obtain rfl : r = r' := congrArg Prod.snd h
    rfl
  | c :: calls, r, r', h => by
    obtain ⟨r₁, hc, h⟩ := h.of_cons
    have hlog : (r₁.depth, r₁.maxDepth) = Call.depths (r.depth, r.maxDepth) c := by
      change Recorder.call c r = _ at hc
      rw [call] at hc
      split at hc
      · cases congrArg Prod.fst hc
      · obtain rfl : _ = r₁ := congrArg Prod.snd hc
        rfl
    rw [depths_of_performs h, hlog, List.foldl_cons]

theorem maxDepth_finish (r : Recorder) : (DocumentWriter.finish r).2.maxDepth = r.maxDepth := by
  change (Recorder.finish r).2.maxDepth = r.maxDepth
  rw [finish]
  split <;> rfl

/-- Whatever commands were given to a recorder and however many of them were rejected: once it is
finished, the strings that it finds for the name of a field are those of the fields of its document with
this name, in document order, and the deepest nesting is the height of the document. -/
theorem queries_of_finished {uses : List (List Command)}
    (h : (Command.performEach uses ({} : Recorder)).2.isFinished = true) : ∃ v : Value,
      (Command.performEach uses ({} : Recorder)).2.document? = some v ∧
      (∀ field, (Command.performEach uses ({} : Recorder)).2.fieldStrings field
        = Value.stringsOf field v.fields) ∧
      (Command.performEach uses ({} : Recorder)).2.maxDepth = v.height := by
  obtain ⟨v, r₁, hcalls, hfinish⟩ := exists_document_of_finished h
  refine ⟨v, document?_of_performs hcalls hfinish, fun field => ?_, ?_⟩
  · have hstrings := Value.fieldStrings_tokensAppend field v []
    rw [fieldStrings, events_of_document hcalls hfinish]
    exact hstrings.trans (List.append_nil _)
  · have hdepths := depths_of_performs hcalls
    rw [Tree.tokens, Tree.depths_tokensAppend v [] (Nat.le_refl 0)] at hdepths
    have hdeepest : r₁.maxDepth = max 0 (0 + v.height) := congrArg Prod.snd hdepths
    have hmax : max 0 (0 + v.height) = v.height := by omega
    rw [← congrArg Prod.snd hfinish, maxDepth_finish, hdeepest, hmax]

/-- Uses of a recorder, some of them rejected, that write an object with a name twice, where the first
string is the name itself, and under another name strings that are not fields and a field that is. -/
def repeatedName : List (List Command) :=
  [[.call .close],
    [.call (.container .object 4), .call (.tag "name"), .call (.tag "name")],
    [.call (.leaf (.string "name")), .call (.tag "name")],
    Command.variant "Named" [.call (.leaf (.string "argument"))],
    [.call (.tag "items")],
    Command.container .array 2
      (.call (.leaf (.string "element"))
        :: Command.container .object 1 [.call (.tag "name"), .call (.leaf (.string "inner"))]),
    [.finish],
    [.call (.tag "name"), .call (.leaf (.string "last")), .call (.leaf (.boolean true))],
    [.call .close, .finish, .finish]]

theorem queries_of_repeatedName : ∃ v : Value,
    (Command.performEach repeatedName ({} : Recorder)).2.document? = some v ∧
    (Command.performEach repeatedName ({} : Recorder)).2.fieldStrings "name"
      = Value.stringsOf "name" v.fields ∧
    (Command.performEach repeatedName ({} : Recorder)).2.fieldStrings "name"
      = ["name", "inner", "last"] ∧
    (Command.performEach repeatedName ({} : Recorder)).2.maxDepth = v.height ∧
    v.height = 3 := by
  have hfinished : (Command.performEach repeatedName ({} : Recorder)).2.isFinished = true := rfl
  obtain ⟨v, hv, hstrings, hdepth⟩ := queries_of_finished hfinished
  refine ⟨v, hv, hstrings "name", rfl, hdepth, ?_⟩
  exact hdepth.symm.trans rfl

end Recorder

end SyntaxExport
