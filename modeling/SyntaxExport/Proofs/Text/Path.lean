import Mathlib.Data.List.DropRight
import Mathlib.Data.List.Infix
import SyntaxExport.Options

/-!
# Components of paths

The components of a path are what stands between its separators, without empty pieces and without the
dots that are not at the start (`Path.components`). A directory that may be stripped has a component at
least, and is stripped component by component (`PathRule.stripPrefix_componentwise`): what is left is a
part of the text of the path, and its components are the components of the path behind those of the
directory.
-/

namespace SyntaxExport

namespace Path

/-! ### Components -/

/-- A component of a path. -/
inductive Component where
  /-- The separator that a path starts with. -/
  | rootDir
  /-- The dot that a path starts with. -/
  | curDir
  /-- Two dots. -/
  | parentDir
  | normal (name : Piece)
  deriving DecidableEq, Repr

def Component.ofName (name : Piece) : Component :=
  if name = ['.', '.'] then .parentDir else .normal name

/-- The pieces that are names: neither empty nor a dot. -/
def named (ps : List Piece) : List Piece :=
  ps.filter fun p => p ≠ [] ∧ p ≠ ['.']

/-- The components of a path that has the given pieces between its separators. An empty piece in front of
a separator is the root directory. -/
def componentsOfPieces : List Piece → List Component
  | [] :: p :: ps => .rootDir :: (named (p :: ps)).map .ofName
  | ['.'] :: ps => .curDir :: (named ps).map .ofName
  | ps => (named ps).map .ofName

/-- The components of the path with a given text. -/
def components (s : List Char) : List Component :=
  componentsOfPieces (s.splitOn '/')

theorem Component.ofName_injective : Function.Injective ofName := by
  intro p q h
  grind [ofName]

/-! ### Pieces -/

section Pieces

variable {ps qs : List Piece}

theorem cut_ne_nil (s : List Char) : cut s ≠ [] := by
  fun_cases cut s <;> simp

theorem cut_eq_splitOn (s : List Char) : cut s = s.splitOn '/' := by
  induction s with
  | nil => rfl
  | cons c s ih =>
    rw [List.splitOn, List.splitOnP_cons_eq_if_modifyHead, ← List.splitOn, ← ih, cut]
    by_cases hc : c = '/'
    · rw [if_pos hc, if_pos (beq_iff_eq.mpr hc)]
    · rw [if_neg hc, if_neg (by simpa using hc)]
      cases hcut : cut s with
      | nil => exact absurd hcut (cut_ne_nil s)
      | cons p ps => rfl

/-- No piece has a separator in it. -/
theorem notMem_of_mem_cut (s : List Char) : ∀ p ∈ cut s, '/' ∉ p := by
  fun_induction cut s with
  | case1 => simp
  | case2 rest ih => exact List.forall_mem_cons.mpr ⟨by simp, ih⟩
  | case3 c rest _ h => exact absurd h (cut_ne_nil rest)
  | case4 c rest hc p ps h ih =>
    rw [h] at ih
    obtain ⟨hp, hps⟩ := List.forall_mem_cons.mp ih
    exact List.forall_mem_cons.mpr ⟨by simp [Ne.symm hc, hp], hps⟩

theorem join_cons (p : Piece) (hps : ps ≠ []) : join (p :: ps) = p ++ '/' :: join ps := by
  cases ps with
  | nil => exact absurd rfl hps
  | cons q ps => rfl

theorem join_eq_intercalate (ps : List Piece) : join ps = ['/'].intercalate ps := by
  induction ps with
  | nil => rfl
  | cons p ps ih =>
    cases ps with
    | nil => simp [join]
    | cons q ps => rw [join_cons p (List.cons_ne_nil q ps), ih]; simp

theorem join_cut (s : List Char) : join (cut s) = s := by
  rw [join_eq_intercalate, cut_eq_splitOn, List.intercalate_splitOn]

theorem join_append (hps : ps ≠ []) (hqs : qs ≠ []) : join (ps ++ qs) = join ps ++ '/' :: join qs := by
  induction ps with
  | nil => exact absurd rfl hps
  | cons p ps ih =>
    cases ps with
    | nil => exact join_cons p hqs
    | cons q ps =>
      have hrest := ih (List.cons_ne_nil q ps)
      rw [List.cons_append, join_cons p (by simp), hrest, join_cons p (by simp)]
      simp

/-- Pieces that stand together are joined to a part of the text. -/
theorem join_infix (h : ps <:+: qs) : join ps <:+: join qs := by
  obtain ⟨before, after, rfl⟩ := h
  have hprefix : join ps <+: join (ps ++ after) := by
    by_cases hps : ps = []
    · rw [hps]
      exact List.nil_prefix
    by_cases hafter : after = []
    · rw [hafter, List.append_nil]
    · rw [join_append hps hafter]
      exact List.prefix_append _ _
  have hsuffix : join (ps ++ after) <:+ join (before ++ (ps ++ after)) := by
    by_cases hbefore : before = []
    · rw [hbefore, List.nil_append]
    by_cases hrest : ps ++ after = []
    · rw [hrest]
      exact List.nil_suffix
    · rw [join_append hbefore hrest]
      exact (List.suffix_cons _ _).trans (List.suffix_append _ _)
  rw [List.append_assoc]
  exact hprefix.isInfix.trans hsuffix.isInfix

/-- The pieces that are no components are those that are no names. -/
theorem isBlank_eq (p : Piece) : isBlank p = !decide (p ≠ [] ∧ p ≠ ['.']) := by
  rw [isBlank, Bool.eq_iff_iff, Bool.or_eq_true, beq_iff_eq, beq_iff_eq, Bool.not_eq_true',
    decide_eq_false_iff_not, not_and_or, not_not, not_not]

theorem names_eq (path : Path) : path.names = named path.pieces := by
  refine List.filter_congr fun p _ => ?_
  rw [isBlank_eq, Bool.not_not]

theorem named_of_isBlank {p : Piece} (hp : isBlank p) (ps : List Piece) : named (p :: ps) = named ps := by
  rw [isBlank_eq, Bool.not_eq_true'] at hp
  exact List.filter_cons_of_neg (Bool.not_eq_true _ ▸ hp)

theorem named_of_not_isBlank {p : Piece} (hp : isBlank p = false) (ps : List Piece) :
    named (p :: ps) = p :: named ps := by
  rw [isBlank_eq, Bool.not_eq_false'] at hp
  exact List.filter_cons_of_pos hp

theorem named_dropBlankStart (ps : List Piece) : named (dropBlankStart ps) = named ps := by
  induction ps with
  | nil => rfl
  | cons p ps ih =>
    rw [dropBlankStart, List.dropWhile_cons]
    split
    · next hp =>
      rw [named_of_isBlank hp]
      exact ih
    · rfl

theorem named_dropBlankEnd (ps : List Piece) : named (dropBlankEnd ps) = named ps := by
  have hreverse : ∀ qs : List Piece, named qs.reverse = (named qs).reverse := fun _ =>
    List.filter_reverse
  rw [dropBlankEnd, hreverse, named_dropBlankStart, hreverse, List.reverse_reverse]

/-- What is left after the blanks at the start does not begin with one. -/
theorem not_isBlank_of_dropBlankStart {p : Piece} (h : dropBlankStart ps = p :: qs) :
    isBlank p = false := by
  have hhead := List.head?_dropWhile_not isBlank ps
  rw [← dropBlankStart, h] at hhead
  exact hhead

end Pieces

/-! ### Paths and their components -/

/-- The component that a path starts with. -/
def anchorComponents : Anchor → List Component
  | .root => [.rootDir]
  | .current => [.curDir]
  | .bare => []

theorem componentsOfPieces_of_not_isBlank {p : Piece} (hp : isBlank p = false) (ps : List Piece) :
    componentsOfPieces (p :: ps) = (named (p :: ps)).map .ofName := by
  rw [componentsOfPieces]
  · intro _ _ h
    cases h
    cases hp
  · intro _ h
    cases h
    cases hp

/-- A text that does not start with the root directory or the current directory starts with a name. -/
theorem exists_first {s : List Char} (hne : s ≠ []) (hroot : ∀ t, s ≠ '/' :: t) (hdot : s ≠ ['.'])
    (hcurrent : ∀ t, s ≠ '.' :: '/' :: t) : ∃ p ps, cut s = p :: ps ∧ isBlank p = false := by
  cases s with
  | nil => exact absurd rfl hne
  | cons c t =>
    have hc : c ≠ '/' := fun hc => hroot t (by rw [hc])
    rw [cut, if_neg hc]
    cases hcut : cut t with
    | nil => exact absurd hcut (cut_ne_nil t)
    | cons p ps =>
      refine ⟨c :: p, ps, rfl, ?_⟩
      by_cases hp : c = '.' ∧ p = []
      · -- the first piece ends at once, so `t` is empty or starts with a separator
        obtain ⟨rfl, rfl⟩ := hp
        cases t with
        | nil => exact absurd rfl hdot
        | cons d t =>
          have hd : d ≠ '/' := fun hd => hcurrent t (by rw [hd])
          rw [cut, if_neg hd] at hcut
          split at hcut <;> cases hcut
      · simpa [isBlank] using hp

/-- The text of a path is its anchor and what its pieces were cut from. -/
theorem exists_cut (s : List Char) :
    ∃ t, (ofText s).pieces = cut t ∧ s = anchorText (ofText s).anchor ++ t := by
  fun_cases ofText s <;> exact ⟨_, rfl, rfl⟩

theorem components_eq (s : List Char) :
    components s = anchorComponents (ofText s).anchor ++ (ofText s).names.map .ofName := by
  rw [components, ← cut_eq_splitOn, names_eq]
  fun_cases ofText s with
  | case1 rest =>
    rw [cut, if_pos rfl]
    cases hcut : cut rest with
    | nil => exact absurd hcut (cut_ne_nil rest)
    | cons p ps => rfl
  | case2 => rfl
  | case3 rest => rfl
  | case4 s hroot hdot hcurrent =>
    by_cases hne : s = []
    · rw [hne]
      rfl
    · obtain ⟨p, ps, hcut, hp⟩ := exists_first hne hroot hdot hcurrent
      rw [hcut, componentsOfPieces_of_not_isBlank hp]
      rfl

/-- A text that is not empty has a component. -/
theorem isEmpty_ofText {s : List Char} (hne : s ≠ []) : (ofText s).isEmpty = false := by
  fun_cases ofText s with
  | case1 rest => rfl
  | case2 => rfl
  | case3 rest => rfl
  | case4 s hroot hdot hcurrent =>
    obtain ⟨p, ps, hcut, hp⟩ := exists_first hne hroot hdot hcurrent
    have hnames : (⟨.bare, cut s⟩ : Path).names = p :: named ps := by
      rw [names_eq]
      exact hcut ▸ named_of_not_isBlank hp ps
    rw [isEmpty, hnames]
    rfl

/-- Where a path with a given first component starts. -/
def startsAt : Option Component → Anchor
  | some .rootDir => .root
  | some .curDir => .current
  | _ => .bare

theorem startsAt_components (s : List Char) : startsAt (components s).head? = (ofText s).anchor := by
  rw [components_eq]
  cases (ofText s).anchor with
  | root => rfl
  | current => rfl
  | bare =>
    cases (ofText s).names with
    | nil => rfl
    | cons name names =>
      rw [anchorComponents, List.nil_append, List.map_cons, List.head?_cons, Component.ofName]
      split <;> rfl

theorem components_ne_nil {s : List Char} (hne : s ≠ []) : components s ≠ [] := by
  intro h
  have hempty := isEmpty_ofText hne
  rw [components_eq, List.append_eq_nil_iff, List.map_eq_nil_iff] at h
  obtain ⟨hanchor, hnames⟩ := h
  rw [isEmpty, hnames] at hempty
  cases ha : (ofText s).anchor with
  | root | current =>
    rw [ha] at hanchor
    cases hanchor
  | bare =>
    rw [ha] at hempty
    cases hempty

/-! ### Stripping -/

variable {dir path out : List Char}

/-- The components of a directory come first among those of a path where both start in the same way and
the names of the directory come first. -/
theorem components_prefix_iff (hne : dir ≠ []) : components dir <+: components path
    ↔ (ofText dir).anchor = (ofText path).anchor ∧ (ofText dir).names <+: (ofText path).names := by
  constructor
  · intro h
    have hanchor : (ofText dir).anchor = (ofText path).anchor := by
      obtain ⟨rest, hrest⟩ := h
      rw [← startsAt_components, ← startsAt_components, ← hrest,
        List.head?_append_of_ne_nil _ (components_ne_nil hne)]
    refine ⟨hanchor, ?_⟩
    rw [components_eq dir, components_eq path, hanchor, List.prefix_append_right_inj,
      List.prefix_map_iff_of_injective Component.ofName_injective] at h
    exact h
  · rintro ⟨hanchor, hnames⟩
    rw [components_eq dir, components_eq path, hanchor, List.prefix_append_right_inj]
    exact hnames.map _

/-- What is found behind names are the last pieces, and the names are all that counts in front of it. -/
theorem of_after? : ∀ {ns ps rest : List Piece}, after? ns ps = some rest →
    ns ++ named rest = named ps ∧ rest <:+ ps
  | [], ps, rest, h => by
    cases h
    exact ⟨rfl, List.suffix_refl ps⟩
  | n :: ns, ps, rest, h => by
    rw [after?] at h
    cases hps : dropBlankStart ps with
    | nil =>
      rw [hps] at h
      cases h
    | cons p qs =>
      rw [hps] at h
      dsimp only at h
      split at h
      · next hp =>
        obtain ⟨hnamed, hsuffix⟩ := of_after? h
        have hqs : qs <:+ ps := by
          refine (List.suffix_cons p qs).trans ?_
          rw [← hps]
          exact List.dropWhile_suffix _
        refine ⟨?_, hsuffix.trans hqs⟩
        rw [List.cons_append, hnamed, ← hp, ← named_of_not_isBlank (not_isBlank_of_dropBlankStart hps),
          ← hps, named_dropBlankStart]
      · cases h

theorem exists_after? : ∀ {ns ps : List Piece}, ns <+: named ps → ∃ rest, after? ns ps = some rest
  | [], ps, _ => ⟨ps, rfl⟩
  | n :: ns, ps, h => by
    rw [← named_dropBlankStart] at h
    rw [after?]
    cases hps : dropBlankStart ps with
    | nil =>
      rw [hps] at h
      exact absurd (List.prefix_nil.mp h) (List.cons_ne_nil n ns)
    | cons p qs =>
      rw [hps, named_of_not_isBlank (not_isBlank_of_dropBlankStart hps)] at h
      obtain ⟨rfl, hns⟩ := List.cons_prefix_cons.mp h
      obtain ⟨rest, hrest⟩ := exists_after? hns
      exact ⟨rest, (if_pos rfl).trans hrest⟩

/-- Pieces between separators that neither begin nor end with a blank are joined to a path with exactly
their names. -/
theorem components_trimmed {ps : List Piece} (h : ∀ p ∈ ps, '/' ∉ p) :
    components (join (dropBlankEnd (dropBlankStart ps))) = (named ps).map .ofName := by
  have hprefix : dropBlankEnd (dropBlankStart ps) <+: dropBlankStart ps := List.rdropWhile_prefix _ _
  rw [← named_dropBlankStart, ← named_dropBlankEnd]
  cases hmid : dropBlankEnd (dropBlankStart ps) with
  | nil => rfl
  | cons p qs =>
    rw [hmid] at hprefix
    obtain ⟨rest, hstart⟩ := hprefix
    have hp : isBlank p = false := not_isBlank_of_dropBlankStart hstart.symm
    have hseparators : ∀ q ∈ p :: qs, '/' ∉ q := by
      intro q hq
      refine h q ((List.dropWhile_suffix isBlank).subset ?_)
      rw [← dropBlankStart, ← hstart]
      exact List.mem_append_left rest hq
    rw [components, join_eq_intercalate, List.splitOn_intercalate _ hseparators (List.cons_ne_nil p qs),
      componentsOfPieces_of_not_isBlank hp]

/-- No piece of a path has a separator in it. -/
theorem notMem_of_mem_pieces : ∀ p ∈ (ofText path).pieces, '/' ∉ p := by
  obtain ⟨t, hpieces, -⟩ := exists_cut path
  rw [hpieces]
  exact notMem_of_mem_cut t

/-- Pieces that stand together in a path are joined to a part of its text. -/
theorem join_infix_text {ps : List Piece} (h : ps <:+: (ofText path).pieces) : join ps <:+: path := by
  obtain ⟨t, hpieces, ht⟩ := exists_cut path
  have hjoin := join_infix h
  rw [hpieces, join_cut] at hjoin
  rw [ht]
  exact hjoin.trans (List.suffix_append _ t).isInfix

theorem Component.rootDir_notMem_map_ofName (ps : List Piece) : rootDir ∉ ps.map ofName := by
  intro hroot
  obtain ⟨p, -, hp⟩ := List.mem_map.mp hroot
  grind [ofName]

/-- What is left of a path is a part of its text. It starts with a name, and its components are those of
the path behind the components of the directory. -/
theorem of_strip? (hne : dir ≠ []) (h : (ofText dir).strip? (ofText path) = some out) :
    components dir ++ components out = components path ∧ out <:+: path ∧
      .rootDir ∉ components out := by
  rw [strip?, isEmpty_ofText hne, if_neg Bool.false_ne_true] at h
  split at h
  · next hanchor =>
    obtain ⟨rest, hrest, rfl⟩ := Option.map_eq_some_iff.mp h
    obtain ⟨hnamed, hsuffix⟩ := of_after? hrest
    have hmid : dropBlankEnd (dropBlankStart rest) <:+: (ofText path).pieces :=
      (List.rdropWhile_prefix _ _).isInfix.trans
        ((List.dropWhile_suffix _).isInfix.trans hsuffix.isInfix)
    rw [components_trimmed fun p hp => notMem_of_mem_pieces p (hsuffix.subset hp)]
    refine ⟨?_, join_infix_text hmid, Component.rootDir_notMem_map_ofName _⟩
    rw [components_eq dir, components_eq path, hanchor, List.append_assoc, ← List.map_append, hnamed,
      names_eq (ofText path)]
  · cases h

theorem exists_strip? (hne : dir ≠ []) (h : components dir <+: components path) :
    ∃ out, (ofText dir).strip? (ofText path) = some out := by
  obtain ⟨hanchor, hnames⟩ := (components_prefix_iff hne).mp h
  rw [names_eq (ofText path)] at hnames
  obtain ⟨rest, hrest⟩ := exists_after? hnames
  exact ⟨_, by rw [strip?, isEmpty_ofText hne, if_neg Bool.false_ne_true, if_pos hanchor, hrest]; rfl⟩

end Path

namespace PathRule

open SyntaxExport.Path (components)

/-- A directory that may be stripped is a text, and not the empty one. -/
theorem exists_text_of_validate {dir : ByteArray} (h : (stripPrefix dir).validate = .ok ()) :
    ∃ text, String.fromUTF8? dir = some text ∧ text.toList ≠ [] := by
  rw [validate] at h
  split at h
  · cases h
  · next hsize =>
    cases htext : String.fromUTF8? dir with
    | none =>
      rw [htext] at h
      cases h
    | some text =>
      refine ⟨text, rfl, fun hnil => hsize ?_⟩
      rw [String.fromUTF8?] at htext
      split at htext
      · cases htext
        exact congrArg (·.toByteArray.size) (String.toList_eq_nil_iff.mp hnil)
      · cases htext

/-- Where the components of the directory do not come first among those of a path, the path stays as it
is. Otherwise a part of its text is left, and the components of that part are exactly the components of
the path behind those of the directory. A directory that starts at the root is stripped only once. -/
theorem stripPrefix_componentwise {dir : ByteArray} (h : (stripPrefix dir).validate = .ok ()) :
    ∃ text, String.fromUTF8? dir = some text ∧ ∀ path : String,
      (¬ components text.toList <+: components path.toList → (stripPrefix dir).normalize path = path) ∧
      (components text.toList <+: components path.toList →
        components text.toList ++ components ((stripPrefix dir).normalize path).toList
          = components path.toList ∧
        ((stripPrefix dir).normalize path).toList <:+: path.toList) ∧
      ((components text.toList).head? = some .rootDir →
        (stripPrefix dir).normalize ((stripPrefix dir).normalize path)
          = (stripPrefix dir).normalize path) := by
  obtain ⟨text, htext, hne⟩ := exists_text_of_validate h
  have hkept : ∀ path : String, ¬ components text.toList <+: components path.toList →
      (stripPrefix dir).normalize path = path := by
    intro path hpath
    rw [normalize, htext]
    dsimp only
    cases hstrip : (Path.ofText text.toList).strip? (Path.ofText path.toList) with
    | none => rfl
    | some out => exact absurd ⟨_, (Path.of_strip? hne hstrip).1⟩ hpath
  have hleft : ∀ path : String, components text.toList <+: components path.toList →
      ∃ out, (Path.ofText text.toList).strip? (Path.ofText path.toList) = some out ∧
        ((stripPrefix dir).normalize path).toList = out := by
    intro path hpath
    obtain ⟨out, hstrip⟩ := Path.exists_strip? hne hpath
    refine ⟨out, hstrip, ?_⟩
    rw [normalize, htext]
    dsimp only
    rw [hstrip, String.toList_ofList]
  refine ⟨text, htext, fun path => ⟨hkept path, fun hpath => ?_, fun hroot => ?_⟩⟩
  · obtain ⟨out, hstrip, rfl⟩ := hleft path hpath
    obtain ⟨hcomponents, hpart, -⟩ := Path.of_strip? hne hstrip
    exact ⟨hcomponents, hpart⟩
  · by_cases hpath : components text.toList <+: components path.toList
    · obtain ⟨out, hstrip, rfl⟩ := hleft path hpath
      obtain ⟨-, -, hnoRoot⟩ := Path.of_strip? hne hstrip
      exact hkept _ fun hagain => hnoRoot (hagain.subset (List.mem_of_mem_head? hroot))
    · rw [hkept path hpath, hkept path hpath]

/-- A directory that is written with a dot and a separator too many. -/
def dottedRule : PathRule :=
  .stripPrefix "/src/./lib/".toUTF8

/-- A path below the directory whose text begins in another way, and a path beside the directory whose
text begins in the same way. -/
theorem stripPrefix_componentwise_dotted :
    dottedRule.validate = .ok () ∧
    dottedRule.normalize "/src//lib/.//a//b.c/" = "a//b.c" ∧
    components "/src/./lib/".toList ++ components "a//b.c".toList
      = components "/src//lib/.//a//b.c/".toList ∧
    dottedRule.normalize "a//b.c" = "a//b.c" ∧
    dottedRule.normalize "/src/./library/a.c" = "/src/./library/a.c" := by
  have hvalid : dottedRule.validate = .ok () := by
    decide +kernel
  have hdir : String.fromUTF8? "/src/./lib/".toUTF8 = some "/src/./lib/" := by
    decide +kernel
  have hbelow : dottedRule.normalize "/src//lib/.//a//b.c/" = "a//b.c" := by
    decide +kernel
  obtain ⟨text, htext, hall⟩ := stripPrefix_componentwise hvalid
  obtain rfl : "/src/./lib/" = text := Option.some.inj (hdir.symm.trans htext)
  obtain ⟨-, hpath, honce⟩ := hall "/src//lib/.//a//b.c/"
  obtain ⟨hbeside, -, -⟩ := hall "/src/./library/a.c"
  have hcomponents := (hpath (by decide +kernel)).1
  have hagain := honce (by decide +kernel)
  change dottedRule.normalize (dottedRule.normalize _) = dottedRule.normalize _ at hagain
  rw [hbelow] at hagain
  exact ⟨hvalid, hbelow, hbelow ▸ hcomponents, hagain, hbeside (by decide +kernel)⟩

end PathRule

end SyntaxExport
