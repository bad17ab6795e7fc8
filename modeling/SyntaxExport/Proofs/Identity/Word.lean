import SyntaxExport.Identity.Basic
import SyntaxExport.Proofs.Text.Hex

/-!
# Words and texts of identities

Different nodes have different words, since sort and index stay apart in them, and different words
have different texts. The text of an identity is read back as that identity.
-/

namespace SyntaxExport

theorem NodeIdentity.parse_text (i : NodeIdentity) : parse i.text = .ok i := by
  have hread : Hex.readBelow UInt64.size (Hex.digits i.raw.toNat) = .ok i.raw.toNat :=
    Hex.readBelow_digits i.raw.toNat_lt
  rw [parse, text, String.toList_ofList, dropMark, hread]
  exact congrArg (fun n => Except.ok (NodeIdentity.mk n)) UInt64.ofNat_toNat

theorem NodeIdentity.text_injective {i j : NodeIdentity} (h : i.text = j.text) : i = j := by
  have hdigits : '0' :: 'x' :: Hex.digits i.raw.toNat = '0' :: 'x' :: Hex.digits j.raw.toNat :=
    String.ofList_injective h
  simp only [List.cons.injEq, true_and] at hdigits
  have hraw : i.raw = j.raw := UInt64.toNat_inj.mp (Hex.digits_injective hdigits)
  cases i
  cases j
  exact congrArg NodeIdentity.mk hraw

namespace NodeRef

theorem rank_le (n : NodeRef) : n.rank ≤ 7 := by
  cases n <;> simp [rank]

theorem index_lt (n : NodeRef) : n.index < 0x100000000 := by
  cases n with
  | null => decide
  | sentinel family => cases family <;> decide
  | decl id | stmt id | type id | comment id | attr id | temporary id => exact id.index.toNat_lt

/-- Sort and index fit into a word side by side. -/
theorem toNat_identity (n : NodeRef) :
    n.identity.raw.toNat = n.rank * 0x10000000000 + n.index * 0x10 := by
  have hrank := n.rank_le
  have hindex := n.index_lt
  rw [identity, UInt64.toNat_ofNat']
  exact Nat.mod_eq_of_lt (by omega)

/-- A node is known by its sort and its index. -/
theorem eq_of_rank_index {n m : NodeRef} (hrank : n.rank = m.rank) (hindex : n.index = m.index) :
    n = m := by
  cases n <;> cases m <;> try cases hrank
  case null.null => rfl
  case sentinel.sentinel f g => cases f <;> cases g <;> first | rfl | cases hindex
  all_goals exact congrArg _ (Id.eq_of_toNat hindex)

theorem identity_injective {n m : NodeRef} (h : n.identity = m.identity) : n = m := by
  have hword : n.identity.raw.toNat = m.identity.raw.toNat := by rw [h]
  rw [toNat_identity, toNat_identity] at hword
  have hn := n.index_lt
  have hm := m.index_lt
  exact eq_of_rank_index (by omega) (by omega)

end NodeRef

end SyntaxExport
