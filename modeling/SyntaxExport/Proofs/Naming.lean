import SyntaxExport.Proofs.Builder.Requests

/-!
# Qualified names and nesting

A qualified name splits into components without a separator in them, and joined again they are the name,
however many colons it has. The name that a builder gives a declaration has in front of its simple name
the qualified name of the declaration that it is made in (`BuilderRequest.name_of_perform`), unless that
one is unnamed, as the translation unit is. So the components of the name are the simple names on the way
out to the translation unit, where these are not empty and have no colons (`Dialogue.names_split`).
-/

namespace SyntaxExport

/-! ### Splitting -/

/-- What comes first when a text is split is how the text begins. -/
theorem prefix_of_splitScopes {s part : List Char} {parts : List (List Char)}
    (h : splitScopes s = part :: parts) : part <+: s := by
  have hjoin := joinScopes_splitScopes s
  rw [h] at hjoin
  cases parts with
  | nil => exact ⟨[], (List.append_nil part).trans hjoin⟩
  | cons q qs => exact ⟨_, hjoin⟩

/-- No part has a separator in it. -/
theorem not_infix_of_mem_splitScopes (s : List Char) :
    ∀ part ∈ splitScopes s, ¬ [':', ':'] <:+: part := by
  fun_induction splitScopes s with
  | case1 => simp
  | case2 rest ih => exact List.forall_mem_cons.mpr ⟨by simp, ih⟩
  | case3 c rest _ h => exact absurd h (splitScopes_ne_nil rest)
  | case4 c rest hfirst part parts h ih =>
    rw [h] at ih
    obtain ⟨hpart, hparts⟩ := List.forall_mem_cons.mp ih
    refine List.forall_mem_cons.mpr ⟨fun hinfix => ?_, hparts⟩
    rcases List.infix_cons_iff.mp hinfix with hprefix | hinfix
    · -- a separator at the front would have been split off
      obtain ⟨rfl, hcolon⟩ := List.cons_prefix_cons.mp hprefix
      obtain ⟨rest', hrest⟩ := hcolon.trans (prefix_of_splitScopes h)
      exact hfirst rest' rfl hrest.symm
    · exact hpart hinfix

/-- A text without colons is one part. -/
theorem splitScopes_of_not_mem : ∀ {part : List Char}, ':' ∉ part → splitScopes part = [part]
  | [], _ => rfl
  | c :: part, h => by
    obtain ⟨hc, hpart⟩ := not_or.mp (mt List.mem_cons.mpr h)
    rw [splitScopes, splitScopes_of_not_mem hpart]
    exact fun _ hcolon _ => absurd hcolon.symm hc

/-- A text without colons in front of a separator is split off. -/
theorem splitScopes_append (rest : List Char) : ∀ {part : List Char}, ':' ∉ part →
    splitScopes (part ++ ':' :: ':' :: rest) = part :: splitScopes rest
  | [], _ => by
    rw [List.nil_append, splitScopes]
  | c :: part, h => by
    obtain ⟨hc, hpart⟩ := not_or.mp (mt List.mem_cons.mpr h)
    rw [List.cons_append, splitScopes, splitScopes_append rest hpart]
    exact fun _ hcolon _ => absurd hcolon.symm hc

theorem splitScopes_joinScopes {parts : List (List Char)} (hne : parts ≠ [])
    (h : ∀ part ∈ parts, ':' ∉ part) : splitScopes (joinScopes parts) = parts := by
  induction parts with
  | nil => exact absurd rfl hne
  | cons part rest ih =>
    obtain ⟨hpart, hrest⟩ := List.forall_mem_cons.mp h
    cases rest with
    | nil => exact splitScopes_of_not_mem hpart
    | cons q parts =>
      have hjoin : joinScopes (part :: q :: parts) = part ++ ':' :: ':' :: joinScopes (q :: parts) := rfl
      rw [hjoin, splitScopes_append _ hpart, ih (List.cons_ne_nil q parts) hrest]

/-! ### Joining -/

theorem toList_intercalate : ∀ parts : List String,
    ("::".intercalate parts).toList = joinScopes (parts.map String.toList)
  | [] => rfl
  | [part] => by simp [joinScopes]
  | part :: q :: parts => by
    rw [String.intercalate_cons_cons, String.toList_append, String.toList_append,
      toList_intercalate (q :: parts)]
    simp [joinScopes]

theorem joinScopes_concat (part : List Char) : ∀ {parts : List (List Char)}, parts ≠ [] →
    joinScopes (parts ++ [part]) = joinScopes parts ++ ':' :: ':' :: part
  | [], hne => absurd rfl hne
  | [p], _ => by simp [joinScopes]
  | p :: q :: parts, _ => by
    have hrest := joinScopes_concat part (List.cons_ne_nil q parts)
    simp only [List.cons_append] at hrest
    simp [joinScopes, hrest]

namespace DeclName

theorem reverse_components (n : DeclName) :
    n.components.reverse = (splitScopes n.qualified.toList).map String.ofList :=
  List.reverse_reverse _

theorem intercalate_components (n : DeclName) :
    "::".intercalate n.components.reverse = n.qualified := by
  have hlists : (splitScopes n.qualified.toList).map (String.toList ∘ String.ofList)
      = splitScopes n.qualified.toList := by
    simp [Function.comp_def]
  rw [← String.toList_inj, toList_intercalate, reverse_components, List.map_map, hlists,
    joinScopes_splitScopes]

theorem not_infix_of_mem_components {n : DeclName} {c : String} (hc : c ∈ n.components) :
    ¬ "::".toList <:+: c.toList := by
  obtain ⟨part, hpart, rfl⟩ := List.mem_map.mp (List.mem_reverse.mp hc)
  simpa using not_infix_of_mem_splitScopes _ part hpart

/-- The name of a declaration in a nesting with the given simple names, innermost first. There is none
outside of every named declaration. -/
def nested : List String → Option DeclName
  | [] => none
  | s :: outer => some (inside (nested outer) s)

/-- A simple name that can be told from its surroundings in a qualified name. -/
def IsPlain (s : String) : Prop :=
  s ≠ "" ∧ ':' ∉ s.toList

theorem qualified_inside_ne_empty (outer : Option DeclName) {s : String} (hs : s ≠ "") :
    (inside outer s).qualified ≠ "" := by
  cases outer with
  | none => exact hs
  | some o =>
    rw [inside]
    split
    · exact hs
    · simp

/-- The qualified name of a nesting has its simple names from the outside in. -/
theorem qualified_nested : ∀ {s : String} {outer : List String}, (∀ n ∈ s :: outer, IsPlain n) →
    (inside (nested outer) s).qualified.toList = joinScopes ((s :: outer).reverse.map String.toList)
  | s, [], _ => rfl
  | s, o :: outer, h => by
    obtain ⟨-, houter⟩ := List.forall_mem_cons.mp h
    have hqualified := qualified_nested houter
    have hne := qualified_inside_ne_empty (nested outer) (houter o List.mem_cons_self).1
    have hlast : (s :: o :: outer).reverse.map String.toList
        = (o :: outer).reverse.map String.toList ++ [s.toList] := by
      rw [List.reverse_cons (a := s), List.map_append, List.map_singleton]
    rw [nested, inside, if_neg hne, String.toList_append, String.toList_append, hqualified, hlast,
      joinScopes_concat _ (by simp), List.append_assoc]
    rfl

theorem components_nested {s : String} {outer : List String} (h : ∀ n ∈ s :: outer, IsPlain n) :
    (inside (nested outer) s).components = s :: outer := by
  have hplain : ∀ part ∈ (s :: outer).reverse.map String.toList, ':' ∉ part := by
    intro part hpart
    obtain ⟨n, hn, rfl⟩ := List.mem_map.mp hpart
    exact (h n (List.mem_reverse.mp hn)).2
  rw [components, qualified_nested h, splitScopes_joinScopes (by simp) hplain]
  simp [List.map_map, Function.comp_def]

end DeclName

/-! ### Names that builders give -/

/-- The parent and the simple name of a declaration that a request makes with a qualified name. -/
def BuilderRequest.scope? : BuilderRequest → Option (DeclId × String)
  | .call (.record parent name _) | .call (.field parent name _ _) | .call (.var parent name _ _ _)
  | .call (.function parent name _ _ _ _) => some (parent, name)
  | _ => none

namespace Build

variable {b b' : Builder} {parent id : DeclId} {name : String} {range : SourceRange} {d : Decl}

/-- A declaration that was declared has its name at the end of the request. -/
theorem name_of_declare {e : Decl} {b₁ : Builder} (h : declare parent e b = some (id, b₁))
    (hafter : b₁.Extends b') (hfits : b'.context.decls.size < UInt32.size) :
    ∃ e', b'.context.decl? id = some e' ∧ e'.name = e.name := by
  obtain ⟨_, b₂, hadd, h⟩ := exists_of_bind h
  obtain ⟨_, b₃, hattach, h⟩ := exists_of_bind h
  cases h
  obtain ⟨rfl, rfl⟩ := of_addDecl hadd
  have hextends := IsTrans.trans _ _ _ (keeps_addToContext _ _ _ _ _ hattach) hafter
  exact hextends.names _ e (Context.decl?_addDecl_new e (hextends.room hfits))

section Members

variable (hd : b.context.decl? parent = some d) (hfits : b'.context.decls.size < UInt32.size)
include hd hfits

theorem name_of_record {t : TypeId} (h : record parent name range b = some ((id, t), b')) :
    ∃ d', b'.context.decl? id = some d' ∧ d'.name = some (DeclName.inside d.name name) := by
  obtain ⟨_, _, hname, h⟩ := exists_of_bind h
  obtain ⟨⟨_, hd', rfl⟩, rfl⟩ := of_qualified hname
  cases hd.symm.trans hd'
  obtain ⟨_, b₁, hdeclare, h⟩ := exists_of_bind h
  obtain ⟨_, b₂, htype, h⟩ := exists_of_bind h
  cases h
  exact name_of_declare hdeclare (keeps_recordType _ _ _ _ htype) hfits

theorem name_of_field {type : QualType} (h : field parent name type range b = some (id, b')) :
    ∃ d', b'.context.decl? id = some d' ∧ d'.name = some (DeclName.inside d.name name) := by
  obtain ⟨_, _, hname, hdeclare⟩ := exists_of_bind h
  obtain ⟨⟨_, hd', rfl⟩, rfl⟩ := of_qualified hname
  cases hd.symm.trans hd'
  exact name_of_declare hdeclare (Std.Refl.refl b') hfits

theorem name_of_function {type : TypeId} {params : List DeclId} {body : Option StmtId}
    (h : function parent name type params body range b = some (id, b')) :
    ∃ d', b'.context.decl? id = some d' ∧ d'.name = some (DeclName.inside d.name name) := by
  obtain ⟨_, _, hname, h⟩ := exists_of_bind h
  obtain ⟨⟨_, hd', rfl⟩, rfl⟩ := of_qualified hname
  cases hd.symm.trans hd'
  obtain ⟨_, b₁, hdeclare, h⟩ := exists_of_bind h
  obtain ⟨_, b₂, hattach, h⟩ := exists_of_bind h
  cases h
  exact name_of_declare hdeclare (keeps_attachParams _ params _ _ _ hattach) hfits

/-- The name of the parent is looked up only after the attachment, which has not changed it. -/
theorem name_of_var {type : QualType} {init : Option StmtId}
    (h : var parent name type init range b = some (id, b')) :
    ∃ d', b'.context.decl? id = some d' ∧ d'.name = some (DeclName.inside d.name name) := by
  obtain ⟨b₁, b₂, e, hlocal, hattach, he, rfl⟩ := of_var h
  have hafter := keeps_addToContext parent id b₁ () b₂ hattach
  obtain ⟨rfl, rfl⟩ := of_addDecl hlocal
  have hsize := hafter.room (by simpa using hfits)
  obtain ⟨e', he', hname⟩ := (IsTrans.trans b _ b₂ (b.extends_addDecl _) hafter).names parent d hd
  cases he.symm.trans he'
  obtain ⟨e₂, he₂, -⟩ := hafter.names _ _ (Context.decl?_addDecl_new _ hsize)
  refine ⟨_, by rw [Context.decl?_modifyDecl, he₂, Option.map_some, if_pos rfl], ?_⟩
  rw [hname]

end Members

end Build

namespace BuilderRequest

variable {b b' : Builder} {r : BuilderRequest} {nodes : List Visit}

/-- A declaration that is made inside another has its simple name behind the name of that one. -/
theorem name_of_perform (h : r.perform b = some (nodes, b'))
    (hfits : b'.context.decls.size < UInt32.size) {parent id : DeclId} {name : String}
    (hscope : r.scope? = some (parent, name)) (hid : .decl id ∈ nodes) {d : Decl}
    (hd : b.context.decl? parent = some d) :
    ∃ d', b'.context.decl? id = some d' ∧ d'.name = some (DeclName.inside d.name name) := by
  unfold scope? at hscope
  split at hscope <;> cases hscope
  · obtain ⟨⟨_, _⟩, _, hrun, hrest⟩ := Build.exists_of_bind h
    cases hrest
    obtain rfl : id = _ := by simpa using hid
    exact Build.name_of_record hd hfits hrun
  · obtain ⟨_, hrun, rfl⟩ := Build.of_return h
    obtain rfl : id = _ := by simpa using hid
    exact Build.name_of_field hd hfits hrun
  · obtain ⟨_, hrun, rfl⟩ := Build.of_return h
    obtain rfl : id = _ := by simpa using hid
    exact Build.name_of_var hd hfits hrun
  · obtain ⟨_, hrun, rfl⟩ := Build.of_return h
    obtain rfl : id = _ := by simpa using hid
    exact Build.name_of_function hd hfits hrun

end BuilderRequest

/-! ### Chains of declarations -/

/-- Declarations that were made one inside the other, each with a qualified name, from the translation
unit inwards: the last of them and the simple names, innermost first. -/
inductive Nested (unit : DeclId) : List Exchange → DeclId → List String → Prop where
  | unit : Nested unit [] unit []
  | later {xs : List Exchange} {id : DeclId} {names : List String} (x : Exchange) :
    Nested unit xs id names → Nested unit (xs ++ [x]) id names
  | inside {xs : List Exchange} {parent : DeclId} {names : List String} {x : Exchange} {id : DeclId}
    {name : String} : Nested unit xs parent names → x.request.scope? = some (parent, name) →
    .decl id ∈ x.nodes → Nested unit (xs ++ [x]) id (name :: names)

/-- What the last exchange adds to a chain. -/
theorem Nested.of_concat {unit id : DeclId} {xs : List Exchange} {x : Exchange} {names : List String}
    (h : Nested unit (xs ++ [x]) id names) : Nested unit xs id names ∨
      ∃ parent name outer, Nested unit xs parent outer ∧ x.request.scope? = some (parent, name) ∧
        .decl id ∈ x.nodes ∧ names = name :: outer := by
  generalize hys : xs ++ [x] = ys at h
  cases h with
  | unit => exact absurd hys (by simp)
  | later y h =>
    obtain ⟨rfl, -⟩ := List.append_inj' hys rfl
    exact .inl h
  | inside h hscope hid =>
    obtain ⟨rfl, hx⟩ := List.append_inj' hys rfl
    cases hx
    exact .inr ⟨_, _, _, h, hscope, hid, rfl⟩

namespace Dialogue

/-- Every declaration of a chain has the name of its nesting. -/
def NamesNested (t : Dialogue) : Prop :=
  ∀ id names, Nested t.builder.unit t.exchanges id names →
    ∃ d, t.builder.context.decl? id = some d ∧ d.name = DeclName.nested names

theorem namesNested_start (file : String) : (start file).NamesNested := by
  intro id names h
  generalize hxs : (start file).exchanges = xs at h
  cases h with
  | unit =>
    rw [start, Builder.new_eq]
    exact ⟨_, rfl, rfl⟩
  | later | inside => cases List.append_ne_nil_of_right_ne_nil _ (List.cons_ne_nil _ _) hxs.symm

theorem NamesNested.request {t t' : Dialogue} {r : BuilderRequest} (ht : t.NamesNested)
    (h : t.request r = some t') : t'.NamesNested := by
  obtain ⟨nodes, hrun, hfits, hexchanges⟩ := of_request h
  have hextends := BuilderRequest.extends_of_perform hrun hfits.decls
  intro id names hnested
  rw [hexchanges, hextends.unit] at hnested
  rcases hnested.of_concat with hearlier | ⟨parent, name, outer, hparent, hscope, hid, rfl⟩
  · obtain ⟨d, hd, hname⟩ := ht id names hearlier
    obtain ⟨d', hd', hsame⟩ := hextends.names id d hd
    exact ⟨d', hd', hsame.trans hname⟩
  · obtain ⟨d, hd, hname⟩ := ht parent outer hparent
    obtain ⟨d', hd', hinside⟩ := BuilderRequest.name_of_perform hrun hfits.decls hscope hid hd
    refine ⟨d', hd', ?_⟩
    rw [hinside, hname]
    rfl

/-- A qualified name is what its components make when they are joined from the outermost in, and no
component has a separator in it. The components of the name of a declaration that was made with the
help of a builder are the simple names of the declarations that it is nested in, innermost first, if none
of them is empty or has a colon. -/
theorem names_split :
    (∀ n : DeclName, "::".intercalate n.components.reverse = n.qualified ∧
      ∀ c ∈ n.components, ¬ "::".toList <:+: c.toList) ∧
    ∀ {file : String} {rs : List BuilderRequest} {t : Dialogue}, (start file).requests rs = some t →
      ∀ {id : DeclId} {names : List String}, Nested t.builder.unit t.exchanges id names →
        names ≠ [] → (∀ s ∈ names, s ≠ "" ∧ ':' ∉ s.toList) →
        ∃ d n, t.builder.context.decl? id = some d ∧ d.name = some n ∧ n.components = names := by
  refine ⟨fun n => ⟨n.intercalate_components, fun c hc => DeclName.not_infix_of_mem_components hc⟩, ?_⟩
  intro file rs t h id names hnested hne hplain
  have ht : t.NamesNested := keeps_of_requests NamesNested.request (namesNested_start file) h
  obtain ⟨d, hd, hname⟩ := ht id names hnested
  cases names with
  | nil => exact absurd rfl hne
  | cons s outer => exact ⟨d, _, hd, hname, DeclName.components_nested hplain⟩

/-- A variable of a function of a record in a record, with a range of one line. -/
def scopedExchanges : List Exchange :=
  let line : SourceRange := ⟨some ⟨⟨0⟩, 1, 1⟩, some ⟨⟨0⟩, 1, 60⟩⟩
  [⟨.call (.builtin .int), [.type ⟨0⟩]⟩,
    ⟨.call (.record ⟨0⟩ "Outer" line), [.decl ⟨1⟩, .type ⟨1⟩]⟩,
    ⟨.call (.record ⟨1⟩ "Inner" line), [.decl ⟨2⟩, .type ⟨2⟩]⟩,
    ⟨.call (.function ⟨2⟩ "run" ⟨0⟩ [] none line), [.decl ⟨3⟩]⟩,
    ⟨.call (.var ⟨3⟩ "count" (.plain ⟨0⟩) none line), [.decl ⟨4⟩]⟩]

/-- The variable is named through all its surroundings. -/
theorem names_split_scoped : ∃ t d n,
    (start "scopes.h").requests (scopedExchanges.map (·.request)) = some t ∧
    Nested t.builder.unit t.exchanges ⟨4⟩ ["count", "run", "Inner", "Outer"] ∧
    t.builder.context.decl? ⟨4⟩ = some d ∧ d.name = some n ∧
    n.components = ["count", "run", "Inner", "Outer"] := by
  have hanswers : ((start "scopes.h").requests (scopedExchanges.map (·.request))).map
      (fun t => (t.builder.unit, t.exchanges)) = some (⟨0⟩, scopedExchanges) := by
    decide +kernel
  obtain ⟨t, ht, hboth⟩ := Option.map_eq_some_iff.mp hanswers
  obtain ⟨hunit, hexchanges⟩ := Prod.mk.inj hboth
  have hnested : Nested t.builder.unit t.exchanges ⟨4⟩ ["count", "run", "Inner", "Outer"] := by
    rw [hunit, hexchanges]
    have houter := (Nested.unit.later scopedExchanges[0]).inside (x := scopedExchanges[1]) rfl
      List.mem_cons_self
    have hinner := houter.inside (x := scopedExchanges[2]) rfl List.mem_cons_self
    have hrun := hinner.inside (x := scopedExchanges[3]) rfl List.mem_cons_self
    exact hrun.inside (x := scopedExchanges[4]) rfl List.mem_cons_self
  obtain ⟨d, n, hd, hn, hcomponents⟩ :=
    names_split.2 ht hnested (List.cons_ne_nil _ _) (by decide +kernel)
  exact ⟨t, d, n, ht, hnested, hd, hn, hcomponents⟩

end Dialogue

end SyntaxExport
