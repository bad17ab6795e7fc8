import SyntaxExport.Ast.Context
import SyntaxExport.Cursor
import SyntaxExport.Proofs.Identity.Numbering

/-!
# The file table

A context numbers the names of its files by first registration, whatever else is added or changed in
between (`FiledContext.Numbered`). So the number of a file stands for its name, and a location that is
written relative to another one comes with a file exactly if the names of the two files differ
(`FiledContext.files_numbered`).
-/

namespace SyntaxExport

theorem FileId.toNat_ofSize {n : Nat} (h : n < UInt32.size) : (ofSize n).toNat = n :=
  UInt32.toNat_ofNat_of_lt h

/-! ### Registration -/

namespace Context

variable (ctx : Context) (name : String)

theorem idxOf?_files : ctx.files.idxOf? name
    = if name ∈ ctx.files.toList then some (ctx.files.toList.idxOf name) else none := by
  rw [← ctx.files.toArray_toList, List.idxOf?_toArray]
  by_cases h : name ∈ ctx.files.toList
  · rw [if_pos h]
    exact List.findIdx?_eq_some_iff_findIdx_eq.mpr ⟨List.idxOf_lt_length_of_mem h, rfl⟩
  · rw [if_neg h]
    exact List.idxOf?_eq_none_iff.mpr h

/-- What is returned for a name is the place of the name, the next place for one that is new. -/
theorem fst_addFile : (ctx.addFile name).1 = FileId.ofSize (ctx.files.toList.idxOf name) := by
  rw [addFile, idxOf?_files]
  by_cases h : name ∈ ctx.files.toList
  · rw [if_pos h]
  · rw [if_neg h, List.idxOf_eq_length h]
    rfl

theorem files_addFile : (ctx.addFile name).2.files.toList
    = if name ∈ ctx.files.toList then ctx.files.toList else ctx.files.toList ++ [name] := by
  rw [addFile, idxOf?_files]
  by_cases h : name ∈ ctx.files.toList
  · rw [if_pos h, if_pos h]
  · rw [if_neg h, if_neg h]
    exact Array.toList_push

end Context

/-- A request to a context: the registration of a file, or another entry, or a change of an entry. -/
inductive ContextRequest where
  | file (name : String)
  | decl (d : Decl)
  | stmt (s : Stmt)
  | type (t : TypeNode)
  | comment (c : Comment)
  | attr (a : Attr)
  | temporary
  | changeDecl (id : DeclId) (f : Decl → Decl)
  | changeStmt (id : StmtId) (f : Stmt → Stmt)
  | changeType (id : TypeId) (f : TypeNode → TypeNode)

/-- A context with the names that were registered in it and the files that were returned for them, in
order. -/
structure FiledContext where
  context : Context := {}
  filed : List (String × FileId) := []

namespace FiledContext

def request (t : FiledContext) : ContextRequest → FiledContext
  | .file name =>
    ⟨(t.context.addFile name).2, t.filed ++ [(name, (t.context.addFile name).1)]⟩
  | .decl d => { t with context := (t.context.addDecl d).2 }
  | .stmt s => { t with context := (t.context.addStmt s).2 }
  | .type node => { t with context := (t.context.addType node).2 }
  | .comment c => { t with context := (t.context.addComment c).2 }
  | .attr a => { t with context := (t.context.addAttr a).2 }
  | .temporary => { t with context := t.context.addTemporary.2 }
  | .changeDecl id f => { t with context := t.context.modifyDecl id f }
  | .changeStmt id f => { t with context := t.context.modifyStmt id f }
  | .changeType id f => { t with context := t.context.modifyType id f }

def requests (t : FiledContext) (rs : List ContextRequest) : FiledContext :=
  rs.foldl request t

/-- The table has the registered names in the order of their first registration, and every file that was
returned is the place of its name. -/
structure Numbered (t : FiledContext) : Prop where
  table : t.context.files.toList = (t.filed.map (·.1)).eraseDups
  places : ∀ name f, (name, f) ∈ t.filed → f = FileId.ofSize (t.context.files.toList.idxOf name)

variable {t : FiledContext}

theorem numbered_empty : ({} : FiledContext).Numbered :=
  ⟨rfl, nofun⟩

theorem Numbered.mem_files (h : t.Numbered) {name : String} :
    name ∈ t.context.files.toList ↔ name ∈ t.filed.map (·.1) := by
  rw [h.table, List.mem_eraseDups]

theorem Numbered.file (h : t.Numbered) (name : String) : (t.request (.file name)).Numbered := by
  have hfiles := t.context.files_addFile name
  by_cases hname : name ∈ t.context.files.toList
  · rw [if_pos hname] at hfiles
    refine ⟨?_, fun other f hmem => ?_⟩
    · rw [request, hfiles, h.table, List.map_append, List.map_singleton,
        eraseDups_concat_of_mem (h.mem_files.mp hname)]
    · rw [request, hfiles]
      rcases List.mem_append.mp hmem with hmem | hmem
      · exact h.places other f hmem
      · cases List.mem_singleton.mp hmem
        exact t.context.fst_addFile name
  · rw [if_neg hname] at hfiles
    refine ⟨?_, fun other f hmem => ?_⟩
    · rw [request, hfiles, h.table, List.map_append, List.map_singleton,
        eraseDups_concat_of_notMem fun hmem => hname (h.mem_files.mpr hmem)]
    · rw [request, hfiles]
      rcases List.mem_append.mp hmem with hmem | hmem
      · -- the names before the last keep their places
        have hother : other ∈ t.context.files.toList := h.mem_files.mpr (List.mem_map_of_mem hmem)
        rw [List.idxOf_append_of_mem hother]
        exact h.places other f hmem
      · cases List.mem_singleton.mp hmem
        rw [Context.fst_addFile, List.idxOf_eq_length hname, List.idxOf_append_of_notMem hname,
          List.idxOf_cons_self, Nat.add_zero]

theorem Numbered.request (h : t.Numbered) (r : ContextRequest) : (t.request r).Numbered := by
  cases r with
  | file name => exact h.file name
  | decl | stmt | type | comment | attr | temporary | changeDecl | changeStmt | changeType =>
    exact ⟨h.table, h.places⟩

theorem Numbered.requests (h : t.Numbered) (rs : List ContextRequest) : (t.requests rs).Numbered := by
  induction rs generalizing t with
  | nil => exact h
  | cons r rs ih => exact ih (h.request r)

/-! ### Small tables -/

section Small

variable (h : t.Numbered) (hsmall : t.context.files.size < UInt32.size)

include h hsmall

theorem Numbered.toNat_of_mem {name : String} {f : FileId} (hf : (name, f) ∈ t.filed) :
    f.toNat = t.context.files.toList.idxOf name := by
  have hlt := List.idxOf_lt_length_of_mem (h.mem_files.mpr (List.mem_map_of_mem hf))
  rw [Array.length_toList] at hlt
  rw [h.places name f hf, FileId.toNat_ofSize (Nat.lt_trans hlt hsmall)]

theorem Numbered.fileName?_of_mem {name : String} {f : FileId} (hf : (name, f) ∈ t.filed) :
    t.context.fileName? f = some name := by
  have hlt := List.idxOf_lt_length_of_mem (h.mem_files.mpr (List.mem_map_of_mem hf))
  rw [Context.fileName?, h.toNat_of_mem hsmall hf, ← Array.getElem?_toList,
    List.getElem?_eq_getElem hlt, List.getElem_idxOf]

theorem Numbered.eq_iff {a b : String} {f g : FileId} (hf : (a, f) ∈ t.filed) (hg : (b, g) ∈ t.filed) :
    f = g ↔ a = b := by
  constructor
  · rintro rfl
    exact Option.some.inj ((h.fileName?_of_mem hsmall hf).symm.trans (h.fileName?_of_mem hsmall hg))
  · rintro rfl
    rw [h.places a f hf, h.places a g hg]

/-- The places of the files that were returned are all those below the number of names. -/
theorem Numbered.eraseDups_places :
    (t.filed.map (·.2.toNat)).eraseDups = List.range t.context.files.size := by
  have hplaces : t.filed.map (·.2.toNat)
      = (t.filed.map (·.1)).map (t.filed.map (·.1)).eraseDups.idxOf := by
    rw [List.map_map]
    refine List.map_congr_left fun x hx => ?_
    rw [h.toNat_of_mem hsmall hx, h.table]
    rfl
  rw [hplaces, eraseDups_map_idxOf, ← h.table, Array.length_toList]

end Small

end FiledContext

/-- A location is written with a file where the cursor is not in its file. -/
theorem LocationCursor.fieldCount_delta_iff (c : LocationCursor) (loc : SourceLocation) :
    (c.delta (some loc)).fieldCount = 3 ↔ c.file ≠ some loc.file := by
  rw [delta]
  by_cases hfile : c.file ≠ some loc.file
  · rw [if_pos hfile]
    exact ⟨fun _ => hfile, fun _ => rfl⟩
  · rw [if_neg hfile]
    refine ⟨fun hcount => ?_, fun hne => absurd hne hfile⟩
    split at hcount <;> cases hcount

namespace FiledContext

variable {t : FiledContext}

/-- After every list of requests to a new context, as long as there are numbers for its files: no name is
twice in the table. Registrations of names, whenever they were made, returned the same file if the names
are the same, and then only. The name of a file that was returned is the registered name still. The files
that were returned are numbered without gaps in the order of first registration. So a cursor in one of
these files has the file written with a location in one of them exactly if the two have different
names. -/
theorem files_numbered {rs : List ContextRequest} (h : ({} : FiledContext).requests rs = t)
    (hsmall : t.context.files.size < UInt32.size) :
    t.context.files.toList.Nodup ∧
    (∀ a b f g, (a, f) ∈ t.filed → (b, g) ∈ t.filed → (f = g ↔ a = b)) ∧
    (∀ a f, (a, f) ∈ t.filed → t.context.fileName? f = some a) ∧
    t.context.files.toList = (t.filed.map (·.1)).eraseDups ∧
    (t.filed.map (·.2.toNat)).eraseDups = List.range t.context.files.size ∧
    ∀ (c : LocationCursor) (loc : SourceLocation) (a b : String) (f : FileId), c.file = some f →
      (a, f) ∈ t.filed → (b, loc.file) ∈ t.filed → ((c.delta (some loc)).fieldCount = 3 ↔ a ≠ b) := by
  have ht : t.Numbered := h ▸ numbered_empty.requests rs
  refine ⟨?_, fun a b f g hf hg => ht.eq_iff hsmall hf hg, fun a f hf => ht.fileName?_of_mem hsmall hf,
    ht.table, ht.eraseDups_places hsmall, fun c loc a b f hc hf hloc => ?_⟩
  · rw [ht.table]
    exact nodup_eraseDups _
  · rw [c.fieldCount_delta_iff, hc]
    exact not_congr (Option.some_inj.trans (ht.eq_iff hsmall hf hloc))

/-- Two files, one of them registered twice, with other entries in between. -/
def headerRequests : List ContextRequest :=
  [.file "a.c", .decl { kind := .translationUnit }, .file "b.h", .temporary, .file "a.c"]

/-- The last registration returns the file of the first. -/
theorem files_numbered_header : ∃ t,
    ({} : FiledContext).requests headerRequests = t ∧ t.context.files.size < UInt32.size ∧
    t.filed = [("a.c", ⟨0⟩), ("b.h", ⟨1⟩), ("a.c", ⟨0⟩)] ∧
    t.context.fileName? ⟨0⟩ = some "a.c" ∧ t.context.files.toList.Nodup ∧
    ((LocationCursor.delta ⟨some ⟨0⟩, some 1⟩ (some ⟨⟨1⟩, 1, 1⟩)).fieldCount = 3 ↔ "a.c" ≠ "b.h") := by
  have hfiled : (({} : FiledContext).requests headerRequests).filed
      = [("a.c", ⟨0⟩), ("b.h", ⟨1⟩), ("a.c", ⟨0⟩)] := by
    decide +kernel
  have hsmall : (({} : FiledContext).requests headerRequests).context.files.size < UInt32.size := by
    decide +kernel
  obtain ⟨hnodup, -, hnames, -, -, hcursor⟩ := files_numbered rfl hsmall
  refine ⟨_, rfl, hsmall, hfiled, hnames _ _ ?_, hnodup, hcursor _ _ _ _ _ rfl ?_ ?_⟩
  · rw [hfiled]
    decide
  · rw [hfiled]
    decide
  · rw [hfiled]
    decide

end FiledContext

end SyntaxExport
