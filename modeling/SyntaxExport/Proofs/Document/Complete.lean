import SyntaxExport.Proofs.Document.Accepts

/-!
# Accepted calls are documents

Calls that a fresh stack of scopes accepts up to the end of the document are the tokens of a document
(`ScopeStack.exists_tokens`). Inside, calls up to the close of a scope are the tokens of its parts.
This is by induction on the number of calls: a part that is itself a scope takes some of them, and the
parts after it take what is left.
-/

namespace SyntaxExport

namespace ScopeStack

variable {α : Type} {s t u : ScopeStack} {slot : Slot}

/-- Calls up to the close of a scope other than an object, which is full then. -/
def ClosesItems (n : Nat) : Prop :=
  ∀ (calls : List (Token α)) (f : Frame) (outer : List Frame) (u : ScopeStack), calls.length ≤ n →
    f.kind ≠ .object → f.tagged = false → (⟨f :: outer⟩ : ScopeStack).accountAll calls = .ok u →
    u.frames.length ≤ outer.length → ∃ ts rest, calls = Tree.itemTokens ts (.close :: rest) ∧
      f.emitted + ts.length = f.arity ∧ (⟨outer⟩ : ScopeStack).accountAll rest = .ok u

/-- Calls up to the close of an object, which is full then. -/
def ClosesFields (n : Nat) : Prop :=
  ∀ (calls : List (Token α)) (f : Frame) (outer : List Frame) (u : ScopeStack), calls.length ≤ n →
    f.kind = .object → f.tagged = false → (⟨f :: outer⟩ : ScopeStack).accountAll calls = .ok u →
    u.frames.length ≤ outer.length → ∃ fs rest, calls = Tree.fieldTokens fs (.close :: rest) ∧
      f.emitted + fs.length = f.arity ∧ (⟨outer⟩ : ScopeStack).accountAll rest = .ok u

theorem length_lt_of_itemTokens {calls rest : List (Token α)} {ts : List (Tree α)}
    (h : calls = Tree.itemTokens ts (.close :: rest)) : rest.length < calls.length := by
  rw [h, Tree.itemTokens_eq_append]
  simp
  omega

theorem length_lt_of_fieldTokens {calls rest : List (Token α)} {fs : List (String × Tree α)}
    (h : calls = Tree.fieldTokens fs (.close :: rest)) : rest.length < calls.length := by
  rw [h, Tree.fieldTokens_eq_append]
  simp
  omega

/-- The calls of one value, up to those after it. -/
theorem exists_tokensAppend {n : Nat} (hitems : ClosesItems (α := α) n)
    (hfields : ClosesFields (α := α) n) {c : Token α} {calls : List (Token α)}
    (hn : calls.length ≤ n) (hvalue : s.value = .ok (slot, t)) (hclose : c ≠ .close)
    (htag : ∀ name, c ≠ .tag name) (h : s.accountAll (c :: calls) = .ok u)
    (hu : u.frames.length ≤ t.frames.length) : ∃ (d : Tree α) (rest : List (Token α)),
      c :: calls = d.tokensAppend rest ∧ rest.length ≤ calls.length ∧ t.accountAll rest = .ok u := by
  obtain ⟨s₁, hc, h⟩ := exists_of_accountAll_cons h
  cases c with
  | leaf a =>
    rw [account_leaf hvalue] at hc
    obtain rfl := Except.ok.inj hc
    exact ⟨.leaf a, calls, rfl, Nat.le_refl _, h⟩
  | container shape arity =>
    rw [account_container hvalue] at hc
    obtain rfl := Except.ok.inj hc
    cases shape with
    | object =>
      obtain ⟨fs, rest, hcalls, hlength, hrest⟩ := hfields calls _ _ u hn rfl rfl h hu
      obtain rfl : fs.length = arity := by simpa using hlength
      refine ⟨.object fs, rest, ?_, Nat.le_of_lt (length_lt_of_fieldTokens hcalls), hrest⟩
      rw [hcalls, Tree.tokensAppend]
    | array =>
      have hkind : Shape.array.scope ≠ .object := by decide
      obtain ⟨ts, rest, hcalls, hlength, hrest⟩ := hitems calls _ _ u hn hkind rfl h hu
      obtain rfl : ts.length = arity := by simpa using hlength
      refine ⟨.array ts, rest, ?_, Nat.le_of_lt (length_lt_of_itemTokens hcalls), hrest⟩
      rw [hcalls, Tree.tokensAppend]
    | tuple =>
      have hkind : Shape.tuple.scope ≠ .object := by decide
      obtain ⟨ts, rest, hcalls, hlength, hrest⟩ := hitems calls _ _ u hn hkind rfl h hu
      obtain rfl : ts.length = arity := by simpa using hlength
      refine ⟨.tuple ts, rest, ?_, Nat.le_of_lt (length_lt_of_itemTokens hcalls), hrest⟩
      rw [hcalls, Tree.tokensAppend]
  | variant tag =>
    rw [account_variant hvalue] at hc
    obtain rfl := Except.ok.inj hc
    have hkind : ScopeKind.variant ≠ .object := by decide
    obtain ⟨ts, rest, hcalls, hlength, hrest⟩ := hitems calls _ _ u hn hkind rfl h hu
    obtain ⟨d, rfl⟩ : ∃ d, ts = [d] := List.length_eq_one_iff.mp (by simpa using hlength)
    refine ⟨.variant tag d, rest, ?_, Nat.le_of_lt (length_lt_of_itemTokens hcalls), hrest⟩
    rw [hcalls, Tree.tokensAppend]
    rfl
  | close => exact absurd rfl hclose
  | tag name => exact absurd rfl (htag name)

/-- What an accepted close closes. -/
theorem of_account_close {f : Frame} {outer : List Frame}
    (h : (⟨f :: outer⟩ : ScopeStack).account (.close : Token α) = .ok t) :
    f.tagged = false ∧ f.emitted = f.arity ∧ t = ⟨outer⟩ := by
  obtain ⟨g, h⟩ := Recorder.exists_of_map_snd h
  grind [close]

/-- What an accepted tag tags. -/
theorem of_account_tag {f : Frame} {outer : List Frame} {name : String}
    (h : (⟨f :: outer⟩ : ScopeStack).account (.tag name : Token α) = .ok t) :
    f.kind = .object ∧ f.tagged = false ∧ t = ⟨{ f with tagged := true } :: outer⟩ := by
  obtain ⟨i, h⟩ := Recorder.exists_of_map_snd h
  grind [tag]

/-- A token that opens a value is accepted where a value is. -/
theorem exists_value_of_account {c : Token α} (hclose : c ≠ .close) (htag : ∀ name, c ≠ .tag name)
    (h : s.account c = .ok t) : ∃ slot u, s.value = .ok (slot, u) := by
  have hvalue : ∀ kind arity, (∃ x, s.enter kind arity = .ok x) → ∃ slot u, s.value = .ok (slot, u) := by
    rintro kind arity ⟨x, hx⟩
    rw [enter] at hx
    split at hx
    · cases hx
    · next slot u hu => exact ⟨slot, u, hu⟩
  cases c with
  | leaf a =>
    obtain ⟨slot, h⟩ := Recorder.exists_of_map_snd h
    exact ⟨slot, t, h⟩
  | container shape arity =>
    obtain ⟨slot, h⟩ := Recorder.exists_of_map_snd h
    exact hvalue _ _ ⟨_, h⟩
  | variant tag =>
    obtain ⟨slot, h⟩ := Recorder.exists_of_map_snd h
    exact hvalue _ _ ⟨_, h⟩
  | close => exact absurd rfl hclose
  | tag name => exact absurd rfl (htag name)

/-- A value in a scope other than an object is one more element. -/
theorem of_value_item {f : Frame} {outer : List Frame} (hkind : f.kind ≠ .object)
    (h : (⟨f :: outer⟩ : ScopeStack).value = .ok (slot, t)) :
    t = ⟨{ f with emitted := f.emitted + 1 } :: outer⟩ := by
  grind [value]

theorem closesItems_succ {n : Nat} (hitems : ClosesItems (α := α) n)
    (hfields : ClosesFields (α := α) n) : ClosesItems (α := α) (n + 1) := by
  intro calls f outer u hn hkind hf h hu
  cases calls with
  | nil =>
    obtain rfl := Except.ok.inj h
    exact absurd hu (Nat.not_succ_le_self _)
  | cons c calls =>
    rw [List.length_cons] at hn
    by_cases hclose : c = .close
    · subst hclose
      obtain ⟨t, hc, h⟩ := exists_of_accountAll_cons h
      obtain ⟨-, hfull, rfl⟩ := of_account_close hc
      exact ⟨[], calls, rfl, hfull, h⟩
    · have htag : ∀ name, c ≠ .tag name := by
        rintro name rfl
        obtain ⟨t, hc, -⟩ := exists_of_accountAll_cons h
        exact hkind (of_account_tag hc).1
      obtain ⟨t, hc, -⟩ := exists_of_accountAll_cons h
      obtain ⟨slot, v, hvalue⟩ := exists_value_of_account hclose htag hc
      obtain rfl := of_value_item hkind hvalue
      have hle : u.frames.length ≤ outer.length + 1 := by omega
      obtain ⟨d, rest, hcalls, hlength, hrest⟩ :=
        exists_tokensAppend hitems hfields (by omega) hvalue hclose htag h hle
      obtain ⟨ts, rest', hts, hfull, hrest'⟩ := hitems rest { f with emitted := f.emitted + 1 }
        outer u (by omega) hkind hf hrest hu
      refine ⟨d :: ts, rest', ?_, ?_, hrest'⟩
      · rw [hcalls, hts, Tree.itemTokens]
      · rw [List.length_cons, ← hfull, Nat.add_right_comm, Nat.add_assoc]

theorem closesFields_succ {n : Nat} (hitems : ClosesItems (α := α) n)
    (hfields : ClosesFields (α := α) n) : ClosesFields (α := α) (n + 1) := by
  intro calls f outer u hn hkind hf h hu
  cases calls with
  | nil =>
    obtain rfl := Except.ok.inj h
    exact absurd hu (Nat.not_succ_le_self _)
  | cons c calls =>
    rw [List.length_cons] at hn
    obtain ⟨t, hc, hcs⟩ := exists_of_accountAll_cons h
    by_cases hclose : c = .close
    · subst hclose
      obtain ⟨-, hfull, rfl⟩ := of_account_close hc
      exact ⟨[], calls, rfl, hfull, hcs⟩
    by_cases htag : ∃ name, c = .tag name
    · obtain ⟨name, rfl⟩ := htag
      obtain ⟨-, -, rfl⟩ := of_account_tag hc
      obtain _ | ⟨c', calls⟩ := calls
      · obtain rfl := Except.ok.inj hcs
        exact absurd hu (Nat.not_succ_le_self _)
      rw [List.length_cons] at hn
      obtain ⟨t, hc', -⟩ := exists_of_accountAll_cons hcs
      -- the frame is tagged, so neither a close nor a second tag can come next
      have hclose' : c' ≠ .close := by
        rintro rfl
        exact absurd (of_account_close hc').1 (by simp)
      have htag' : ∀ name, c' ≠ .tag name := by
        rintro name rfl
        exact absurd (of_account_tag hc').2.1 (by simp)
      have hvalue := value_of_tagged hkind hf outer
      have hle : u.frames.length ≤ outer.length + 1 := by omega
      obtain ⟨d, rest, hcalls, hlength, hrest⟩ :=
        exists_tokensAppend hitems hfields (by omega) hvalue hclose' htag' hcs hle
      obtain ⟨fs, rest', hfs, hfull, hrest'⟩ := hfields rest { f with emitted := f.emitted + 1 }
        outer u (by omega) hkind hf hrest hu
      refine ⟨(name, d) :: fs, rest', ?_, ?_, hrest'⟩
      · rw [hcalls, hfs, Tree.fieldTokens]
      · rw [List.length_cons, ← hfull, Nat.add_right_comm, Nat.add_assoc]
    · obtain ⟨slot, v, hvalue⟩ :=
        exists_value_of_account hclose (fun name hname => htag ⟨name, hname⟩) hc
      -- an object takes no value without a tag
      grind [value]

theorem closes (n : Nat) : ClosesItems (α := α) n ∧ ClosesFields (α := α) n := by
  induction n with
  | zero =>
    refine ⟨?_, ?_⟩ <;>
    · intro calls f outer u hn hkind hf h hu
      obtain rfl := List.eq_nil_of_length_eq_zero (Nat.le_zero.mp hn)
      obtain rfl := Except.ok.inj h
      exact absurd hu (Nat.not_succ_le_self _)
  | succ n ih => exact ⟨closesItems_succ ih.1 ih.2, closesFields_succ ih.1 ih.2⟩

/-- Calls that are accepted up to the end of the document are the tokens of a document. -/
theorem exists_tokens {calls : List (Token α)} (h : accountAll {} calls = .ok s)
    (hfinish : s.finish = .ok t) : ∃ d : Tree α, calls = d.tokens := by
  have hvalue := value_empty
  have hs : s.frames.length ≤ 1 := by
    grind [finish]
  cases calls with
  | nil =>
    obtain rfl := Except.ok.inj h
    cases hfinish
  | cons c calls =>
    obtain ⟨u, hc, -⟩ := exists_of_accountAll_cons h
    have hclose : c ≠ .close := by
      rintro rfl
      cases hc
    have htag : ∀ name, c ≠ .tag name := by
      rintro name rfl
      cases hc
    obtain ⟨hitems, hfields⟩ := closes (α := α) calls.length
    obtain ⟨d, rest, hcalls, -, hrest⟩ :=
      exists_tokensAppend hitems hfields (Nat.le_refl _) hvalue hclose htag h hs
    cases rest with
    | nil => exact ⟨d, hcalls⟩
    | cons c' rest =>
      -- the document is full
      obtain ⟨v, hc', -⟩ := exists_of_accountAll_cons hrest
      cases c' <;> cases hc'

/-- A finished stack accepts nothing. -/
theorem not_account_of_finished (c : Token α) : (⟨[]⟩ : ScopeStack).account c = .error .finished := by
  cases c <;> rfl

end ScopeStack

/-! ### Writers -/

namespace ScopedWriter

variable {σ : Type} [ScopedWriter σ] {w w' : σ}

/-- What a reliable writer accepts, its scopes accept. -/
theorem account_of_call {c : Call} (hw : Reliable w) (h : DocumentWriter.call c w = (.ok (), w')) :
    (scopes w).account c = .ok (scopes w') ∧ Reliable w' := by
  cases hc : (scopes w).account c with
  | error e =>
    rw [call_error hc] at h
    cases congrArg Prod.fst h
  | ok s =>
    obtain ⟨w₁, hcall, hs, hw₁⟩ := call_ok hw hc
    rw [hcall] at h
    obtain rfl := congrArg Prod.snd h
    exact ⟨by rw [hs], hw₁⟩

theorem finish_of_finish (hw : Reliable w) (h : DocumentWriter.finish w = (.ok (), w')) :
    (scopes w).finish = .ok (scopes w') := by
  cases hc : (scopes w).finish with
  | error e =>
    rw [finish_error hc] at h
    cases congrArg Prod.fst h
  | ok s =>
    obtain ⟨w₁, hfinish, hs⟩ := finish_ok hw hc
    rw [hfinish] at h
    obtain rfl := congrArg Prod.snd h
    rw [hs]

theorem accountAll_of_performs : ∀ {calls : List Call} {w : σ}, Reliable w → Performs calls w w' →
    (scopes w).accountAll calls = .ok (scopes w') ∧ Reliable w'
  | [], w, hw, h => by
    obtain rfl : w = w' := congrArg Prod.snd h
    exact ⟨rfl, hw⟩
  | c :: calls, w, hw, h => by
    obtain ⟨w₁, hc, h⟩ := h.of_cons
    obtain ⟨haccount, hw₁⟩ := account_of_call hw hc
    rw [ScopeStack.accountAll_cons haccount]
    exact accountAll_of_performs hw₁ h

/-- Nothing is accepted after the end of a document. -/
theorem not_perform_of_finished (hw : (scopes w).frames = []) (c : Command) :
    (c.perform w).1 = .error .finished := by
  have hs : scopes w = ⟨[]⟩ := by
    cases hscopes : scopes w
    rw [hscopes] at hw
    exact congrArg ScopeStack.mk hw
  cases c with
  | call c =>
    rw [Command.perform, call_error (e := .finished)]
    rw [hs]
    exact ScopeStack.not_account_of_finished c
  | finish =>
    rw [Command.perform, finish_error (e := .finished)]
    rw [hs]
    rfl

/-- Commands that are accepted up to the end of the document are calls up to their last. -/
theorem exists_calls : ∀ {commands : List Command} {w : σ}, Reliable w →
    Command.performAll (commands ++ [.finish]) w = (.ok (), w') → ∃ calls w₁,
      commands = calls.map .call ∧ Performs calls w w₁ ∧ DocumentWriter.finish w₁ = (.ok (), w')
  | [], w, hw, h => by
    refine ⟨[], w, rfl, Performs.nil w, ?_⟩
    obtain ⟨w₁, hfinish, h⟩ := Command.exists_of_performAll_cons h
    obtain rfl : w₁ = w' := congrArg Prod.snd h
    exact hfinish
  | .call c :: commands, w, hw, h => by
    obtain ⟨w₁, hc, h⟩ := Command.exists_of_performAll_cons h
    obtain ⟨calls, w₂, rfl, hcalls, hfinish⟩ := exists_calls (account_of_call hw hc).2 h
    exact ⟨c :: calls, w₂, rfl, Performs.cons hc hcalls, hfinish⟩
  | .finish :: commands, w, hw, h => by
    obtain ⟨w₁, hfinish, h⟩ := Command.exists_of_performAll_cons h
    have hframes : (scopes w₁).frames = [] := by
      have hs := finish_of_finish hw hfinish
      grind [ScopeStack.finish]
    -- at least the last command comes after this end
    obtain ⟨c, rest, hrest⟩ : ∃ c rest, commands ++ [Command.finish] = c :: rest := by
      cases commands <;> exact ⟨_, _, rfl⟩
    change Command.performAll (commands ++ [Command.finish]) w₁ = _ at h
    rw [hrest] at h
    obtain ⟨w₂, hc, -⟩ := Command.exists_of_performAll_cons h
    have hrejected := not_perform_of_finished hframes c
    rw [hc] at hrejected
    cases hrejected

end ScopedWriter

end SyntaxExport
