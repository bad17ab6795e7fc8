import Mathlib.Data.Prod.Lex
import SyntaxExport.Proofs.Identity.Word

/-!
# The order of identities

The word of an identity has the sort of the node in the bits from 40 upwards and its index in the 32 bits
from 4 upwards, and the index stays below the sort. So words are ordered like nodes, by sort and then by
index (`NodeRef.identity_embeds`).
-/

namespace SyntaxExport.NodeRef

variable (n m : NodeRef)

/-- The index ends below the sort. -/
theorem index_mul_lt : n.index * 0x10 < 0x10000000000 := by
  have hindex := n.index_lt
  omega

/-- Sort and index are put side by side without a carry. -/
theorem raw_identity :
    n.identity.raw = UInt64.ofNat n.rank <<< 40 ||| UInt64.ofNat n.index <<< 4 := by
  have hrank := n.rank_le
  have hindex := n.index_lt
  have hsort : (UInt64.ofNat n.rank <<< 40).toNat = n.rank <<< 40 := by
    rw [UInt64.toNat_shiftLeft, UInt64.toNat_ofNat', Nat.shiftLeft_eq, Nat.shiftLeft_eq]
    simp only [UInt64.toNat_ofNat, Nat.reducePow, Nat.reduceMod]
    omega
  have hplace : (UInt64.ofNat n.index <<< 4).toNat = n.index * 0x10 := by
    rw [UInt64.toNat_shiftLeft, UInt64.toNat_ofNat', Nat.shiftLeft_eq]
    simp only [UInt64.toNat_ofNat, Nat.reducePow, Nat.reduceMod]
    omega
  have hor : n.rank <<< 40 ||| n.index * 0x10 = n.rank <<< 40 + n.index * 0x10 :=
    (Nat.shiftLeft_add_eq_or_of_lt n.index_mul_lt n.rank).symm
  refine UInt64.toNat_inj.mp ?_
  rw [UInt64.toNat_or, hsort, hplace, hor, Nat.shiftLeft_eq, toNat_identity]

/-- The sort is what the upper bits are. -/
theorem toNat_raw_shiftRight : (n.identity.raw >>> 40).toNat = n.rank := by
  have hindex := n.index_mul_lt
  rw [UInt64.toNat_shiftRight, toNat_identity, Nat.shiftRight_eq_div_pow]
  simp only [UInt64.toNat_ofNat, Nat.reducePow, Nat.reduceMod]
  omega

/-- The index is what the bits below the sort are. -/
theorem toNat_raw_and_shiftRight : ((n.identity.raw &&& 0xFFFFFFFFFF) >>> 4).toNat = n.index := by
  have hindex := n.index_mul_lt
  have hlow : (n.identity.raw &&& 0xFFFFFFFFFF).toNat = n.identity.raw.toNat % 2 ^ 40 := by
    rw [UInt64.toNat_and]
    exact Nat.and_two_pow_sub_one_eq_mod _ 40
  rw [UInt64.toNat_shiftRight, hlow, toNat_identity, Nat.shiftRight_eq_div_pow]
  simp only [UInt64.toNat_ofNat, Nat.reducePow, Nat.reduceMod]
  omega

/-- Words are compared by sort, and among nodes of one sort by index. -/
theorem raw_identity_le_iff :
    n.identity.raw ≤ m.identity.raw ↔ toLex (n.rank, n.index) ≤ toLex (m.rank, m.index) := by
  have hn := n.index_mul_lt
  have hm := m.index_mul_lt
  rw [UInt64.le_iff_toNat_le, toNat_identity, toNat_identity, Prod.Lex.toLex_le_toLex]
  omega

theorem isNull_identity_iff : n.identity.isNull = true ↔ n = .null := by
  have hnull : NodeRef.null.identity.raw = 0 := rfl
  rw [NodeIdentity.isNull, beq_iff_eq]
  constructor
  · intro h
    refine identity_injective ?_
    rw [← hnull] at h
    exact congrArg NodeIdentity.mk h
  · rintro rfl
    exact hnull

/-- Identities are ordered like nodes, by sort and then by index, whatever the index. So different nodes
have different identities. The word is made of sort and index as bits that do not overlap, and both can
be read off it. Only no node at all has the null identity. -/
theorem identity_embeds :
    (∀ n m : NodeRef, n.identity.raw ≤ m.identity.raw
      ↔ toLex (n.rank, n.index) ≤ toLex (m.rank, m.index)) ∧
    Function.Injective identity ∧
    (∀ n : NodeRef, n.identity.raw = UInt64.ofNat n.rank <<< 40 ||| UInt64.ofNat n.index <<< 4 ∧
      (n.identity.raw >>> 40).toNat = n.rank ∧
      ((n.identity.raw &&& 0xFFFFFFFFFF) >>> 4).toNat = n.index) ∧
    ∀ n : NodeRef, n.identity.isNull = true ↔ n = .null :=
  ⟨raw_identity_le_iff, fun _ _ => identity_injective,
    fun n => ⟨raw_identity n, toNat_raw_shiftRight n, toNat_raw_and_shiftRight n⟩, isNull_identity_iff⟩

/-- The last index of a sort stays below the first one of the next. -/
example : (NodeRef.decl Id.invalid).identity = ⟨0x10FFFFFFFF0⟩ ∧
    (NodeRef.stmt ⟨0⟩).identity = ⟨0x20000000000⟩ := by
  decide

end SyntaxExport.NodeRef
