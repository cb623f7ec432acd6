import Mathlib

/-!
# Chained blocks

Data in blocks of a fixed size, and the chaining of a permutation of blocks: each block is masked
with the one that came out before it and then permuted. `cut` reads data as a number of blocks and
`join` writes blocks behind one another; on data of whole blocks they undo each other (`join_cut`,
`cut_join`). Chaining backward undoes chaining forward and the other way round, as long as masking
twice with a block does nothing (`chainBack_chain`, `chain_chainBack`).
-/

set_option autoImplicit false
set_option relaxedAutoImplicit false

namespace LiveCDN.Library.BlockChaining

/-! ### Blocks -/

section Blocks

variable {α : Type*} [Inhabited α] {size : ℕ}

/-- The first blocks of some data. -/
def cut (size : ℕ) : ℕ → List α → List (Fin size → α)
  | 0, _ => []
  | count + 1, data => (fun i ↦ data.getD i default) :: cut size count (data.drop size)

/-- Blocks behind one another. -/
def join (blocks : List (Fin size → α)) : List α := blocks.flatMap List.ofFn

omit [Inhabited α] in
theorem length_join (blocks : List (Fin size → α)) :
    (join blocks).length = blocks.length * size := by
  induction blocks with
  | nil => rw [join, List.flatMap_nil, List.length_nil, List.length_nil, Nat.zero_mul]
  | cons block blocks ih =>
    rw [join, List.flatMap_cons, List.length_append, List.length_ofFn, List.length_cons,
      Nat.succ_mul, Nat.add_comm, ← ih]
    rfl

theorem length_cut (count : ℕ) (data : List α) : (cut size count data).length = count := by
  induction count generalizing data with
  | zero => rfl
  | succ count ih => rw [cut, List.length_cons, ih]

/-- Data of whole blocks is the blocks it is cut into. -/
theorem join_cut {count : ℕ} {data : List α} (hdata : data.length = count * size) :
    join (cut size count data) = data := by
  induction count generalizing data with
  | zero =>
    rw [Nat.zero_mul] at hdata
    rw [List.eq_nil_of_length_eq_zero hdata]
    rfl
  | succ count ih =>
    have hle : size ≤ data.length := by
      rw [hdata, Nat.succ_mul]
      exact Nat.le_add_left _ _
    have hfirst : (List.ofFn fun i : Fin size ↦ data.getD i default) = data.take size := by
      refine List.ext_getElem ?_ fun i hi _ ↦ ?_
      · rw [List.length_ofFn, List.length_take, min_eq_left hle]
      · rw [List.length_ofFn] at hi
        rw [List.getElem_ofFn, List.getElem_take, List.getD_eq_getElem _ _ (hi.trans_le hle)]
    rw [cut, join, List.flatMap_cons, hfirst]
    change data.take size ++ join (cut size count (data.drop size)) = data
    rw [ih (by rw [List.length_drop, hdata, Nat.succ_mul, Nat.add_sub_cancel]),
      List.take_append_drop]

/-- The blocks are what they are cut into behind one another. -/
theorem cut_join (blocks : List (Fin size → α)) :
    cut size blocks.length (join blocks) = blocks := by
  induction blocks with
  | nil => rfl
  | cons block blocks ih =>
    have hfirst (i : Fin size) : (List.ofFn block ++ join blocks).getD i default = block i := by
      have hi : i.val < (List.ofFn block).length := by
        rw [List.length_ofFn]
        exact i.isLt
      rw [List.getD_append _ _ _ _ hi, List.getD_eq_getElem _ _ hi, List.getElem_ofFn]
    have hrest : (List.ofFn block ++ join blocks).drop size = join blocks :=
      List.drop_left' List.length_ofFn
    rw [List.length_cons, cut, join, List.flatMap_cons]
    change (fun i : Fin size ↦ (List.ofFn block ++ join blocks).getD i default) ::
      cut size blocks.length ((List.ofFn block ++ join blocks).drop size) = block :: blocks
    rw [hrest, ih]
    exact congrArg (· :: blocks) (funext hfirst)

end Blocks

/-! ### Chaining -/

section Chaining

variable {Block : Type*} (mask : Block → Block → Block) (permute : Equiv.Perm Block)

/-- Each block masked with the one that came out before it, and permuted. -/
def chain : Block → List Block → List Block
  | _, [] => []
  | previous, block :: blocks =>
    permute (mask block previous) :: chain (permute (mask block previous)) blocks

/-- Each block permuted back, and masked with the one that went in before it. -/
def chainBack : Block → List Block → List Block
  | _, [] => []
  | previous, block :: blocks => mask (permute.symm block) previous :: chainBack block blocks

theorem length_chain (previous : Block) (blocks : List Block) :
    (chain mask permute previous blocks).length = blocks.length := by
  induction blocks generalizing previous with
  | nil => rfl
  | cons block blocks ih => rw [chain, List.length_cons, List.length_cons, ih]

theorem length_chainBack (previous : Block) (blocks : List Block) :
    (chainBack mask permute previous blocks).length = blocks.length := by
  induction blocks generalizing previous with
  | nil => rfl
  | cons block blocks ih => rw [chainBack, List.length_cons, List.length_cons, ih]

variable {mask}

/-- Chaining backward undoes chaining. Assumes: masking twice with a block does nothing. -/
theorem chainBack_chain (hmask : ∀ block other, mask (mask block other) other = block)
    (previous : Block) (blocks : List Block) :
    chainBack mask permute previous (chain mask permute previous blocks) = blocks := by
  induction blocks generalizing previous with
  | nil => rfl
  | cons block blocks ih =>
    rw [chain, chainBack, Equiv.symm_apply_apply, hmask, ih]

/-- Chaining undoes chaining backward. Assumes: masking twice with a block does nothing. -/
theorem chain_chainBack (hmask : ∀ block other, mask (mask block other) other = block)
    (previous : Block) (blocks : List Block) :
    chain mask permute previous (chainBack mask permute previous blocks) = blocks := by
  induction blocks generalizing previous with
  | nil => rfl
  | cons block blocks ih =>
    rw [chainBack, chain, hmask, Equiv.apply_symm_apply, ih]

end Chaining

end LiveCDN.Library.BlockChaining
