import Mathlib.Algebra.Group.Nat.Basic
import Mathlib.Data.List.Nodup
import Mathlib.Data.String.Basic

/-! # Handle tables of the wasi-nn host state

`Table` keeps the graphs and the execution contexts of `WasiNnCtx` under the `u32` keys
that `use_next_key` hands out in order. The counter's `+=` wraps, as a release build
compiles it.
-/

namespace Wasmfxtime.WasiNn

theorem toNat_uint32_ofNat (n : Nat) : (UInt32.ofNat n).toNat = n % 2 ^ 32 := rfl

theorem add_ofNat_ne (a : UInt32) {i j : Nat} (hi : i < 2 ^ 32) (hj : j < 2 ^ 32) (hij : i ≠ j) :
    a + UInt32.ofNat i ≠ a + UInt32.ofNat j := fun h => by
  have := congrArg UInt32.toNat h
  simp only [UInt32.toNat_add, toNat_uint32_ofNat, Nat.mod_eq_of_lt hi, Nat.mod_eq_of_lt hj,
    UInt32.size] at this
  have := a.toNat_lt_size
  simp only [UInt32.size] at this
  omega

theorem add_ofNat_zero (a : UInt32) : a + UInt32.ofNat 0 = a := by
  apply UInt32.toNat.inj
  rw [UInt32.toNat_add, toNat_uint32_ofNat, Nat.zero_mod, Nat.add_zero]
  exact Nat.mod_eq_of_lt a.toNat_lt_size

theorem add_one_add_ofNat (a : UInt32) (i : Nat) :
    a + 1 + UInt32.ofNat i = a + UInt32.ofNat (i + 1) := by
  apply UInt32.toNat.inj
  simp only [UInt32.toNat_add, toNat_uint32_ofNat, show (1 : UInt32).toNat = 1 from rfl,
    UInt32.size]
  omega

/-- `Table<K, V>` with the `u32` keys of `WasiNnCtx`, its `HashMap` as a function. -/
structure Table (V : Type) where
  entries : UInt32 → Option V
  nextKey : UInt32

namespace Table

variable {V : Type}

def default : Table V := ⟨fun _ => none, 0⟩

/-- `use_next_key`: the current key, and the table with `next_key += 1`. -/
def useNextKey (t : Table V) : UInt32 × Table V :=
  (t.nextKey, { t with nextKey := t.nextKey + 1 })

def insert (t : Table V) (value : V) : UInt32 × Table V :=
  let (key, t) := t.useNextKey
  (key, { t with entries := Function.update t.entries key (some value) })

def getMut (t : Table V) (key : UInt32) : Option V := t.entries key

-- `insert` called with each value in turn, with the keys it returns.
def insertAll (t : Table V) : List V → List UInt32 × Table V
  | [] => ([], t)
  | value :: values =>
    let (key, t) := t.insert value
    let (keys, t) := t.insertAll values
    (key :: keys, t)

@[simp] theorem insert_fst (t : Table V) (value : V) : (t.insert value).1 = t.nextKey := rfl

@[simp] theorem nextKey_insert (t : Table V) (value : V) :
    (t.insert value).2.nextKey = t.nextKey + 1 := rfl

theorem getMut_insert (t : Table V) (value : V) (key : UInt32) :
    (t.insert value).2.getMut key = if key = t.nextKey then some value else t.getMut key := by
  simp only [insert, useNextKey, getMut, Function.update_apply]

@[simp] theorem insertAll_cons (t : Table V) (value : V) (values : List V) :
    t.insertAll (value :: values) =
      (t.nextKey :: ((t.insert value).2.insertAll values).1,
        ((t.insert value).2.insertAll values).2) := rfl

/-! ## Runs of inserts -/

theorem insertAll_keys (t : Table V) (values : List V) :
    (t.insertAll values).1 =
      (List.range values.length).map fun i => t.nextKey + UInt32.ofNat i := by
  induction values generalizing t with
  | nil => rfl
  | cons value values ih =>
    rw [insertAll_cons, ih, nextKey_insert, List.length_cons, List.range_succ_eq_map,
      List.map_cons, List.map_map, add_ofNat_zero]
    exact congrArg _ (List.map_congr_left fun i _ => add_one_add_ofNat _ i)

theorem nextKey_insertAll (t : Table V) (values : List V) :
    (t.insertAll values).2.nextKey = t.nextKey + UInt32.ofNat values.length := by
  induction values generalizing t with
  | nil => exact (add_ofNat_zero _).symm
  | cons value values ih => simp only [insertAll_cons, ih, nextKey_insert, add_one_add_ofNat,
      List.length_cons]

theorem getMut_insertAll_of_ne (t : Table V) (values : List V) (key : UInt32)
    (h : ∀ i < values.length, t.nextKey + UInt32.ofNat i ≠ key) :
    (t.insertAll values).2.getMut key = t.getMut key := by
  induction values generalizing t with
  | nil => rfl
  | cons value values ih =>
    have h0 : key ≠ t.nextKey := fun hk =>
      h 0 (Nat.succ_pos _) ((add_ofNat_zero _).trans hk.symm)
    rw [insertAll_cons, ih, getMut_insert, if_neg h0]
    intro i hi
    rw [nextKey_insert, add_one_add_ofNat]
    exact h (i + 1) (by simpa using hi)

theorem getMut_insertAll (t : Table V) (values : List V) (h : values.length ≤ 2 ^ 32) (i : Nat)
    (hi : i < values.length) :
    (t.insertAll values).2.getMut (t.nextKey + UInt32.ofNat i) = some values[i] := by
  induction values generalizing t i with
  | nil => cases hi
  | cons value values ih =>
    simp only [List.length_cons] at h hi
    rw [insertAll_cons]
    cases i with
    | zero =>
      have hkey := add_ofNat_zero t.nextKey
      rw [getMut_insertAll_of_ne, hkey, getMut_insert, if_pos rfl, List.getElem_cons_zero]
      intro j hj
      rw [nextKey_insert, add_one_add_ofNat, ← hkey]
      exact add_ofNat_ne _ (by omega) (by omega) (by omega)
    | succ i =>
      rw [← add_one_add_ofNat, ← nextKey_insert t value, List.getElem_cons_succ]
      exact ih _ (by omega) i (by omega)

/-- Over any run of inserts, however many and wrapping included, `get_mut` finds the value
of the last insert that returned its key, and otherwise the entry the table had. -/
theorem getMut_insertAll_last (t : Table V) (values : List V) (key : UInt32) :
    (t.insertAll values).2.getMut key =
      ((((t.insertAll values).1.zip values).reverse.find? fun p => p.1 == key).map
        Prod.snd).or (t.getMut key) := by
  induction values generalizing t with
  | nil => rfl
  | cons value values ih =>
    rw [insertAll_cons, ih, getMut_insert, List.zip_cons_cons, List.reverse_cons,
      List.find?_append]
    cases List.find? (fun p => p.1 == key)
        (((t.insert value).2.insertAll values).1.zip values).reverse with
    | some p => rfl
    | none =>
      by_cases hk : key = t.nextKey
      · simp [hk]
      · simp [hk, Ne.symm hk]

end Table

open Table

/-- While at most `2^32` values have been inserted into a fresh table, `insert` has
returned the keys `0, 1, ...` in order, no key twice, and each key still finds the value
inserted under it. -/
theorem insertAll_keys_fresh {V : Type} (values : List V) (h : values.length ≤ 2 ^ 32) :
    (Table.default.insertAll values).1 = (List.range values.length).map UInt32.ofNat ∧
    (Table.default.insertAll values).1.Nodup ∧
    ∀ i (hi : i < values.length),
      (Table.default.insertAll values).2.getMut (UInt32.ofNat i) = some values[i] := by
  have hzero : ∀ i, (0 : UInt32) + UInt32.ofNat i = UInt32.ofNat i := fun i =>
    UInt32.toNat.inj (by simp [UInt32.toNat_add, toNat_uint32_ofNat])
  have hkeys :
      (Table.default.insertAll values).1 = (List.range values.length).map UInt32.ofNat := by
    rw [insertAll_keys]
    exact List.map_congr_left fun i _ => hzero i
  refine ⟨hkeys, hkeys ▸ (List.nodup_range _).map_on fun x hx y hy hxy => ?_, fun i hi => ?_⟩
  · have := congrArg UInt32.toNat hxy
    simp only [toNat_uint32_ofNat] at this
    rw [List.mem_range] at hx hy
    rwa [Nat.mod_eq_of_lt (by omega), Nat.mod_eq_of_lt (by omega)] at this
  · rw [← hzero i]
    exact getMut_insertAll _ values h i hi

theorem insertAll_keys_fresh_three :
    [10, 20, 30].length ≤ 2 ^ 32 ∧
    (Table.default.insertAll [10, 20, 30]).1 = (List.range 3).map UInt32.ofNat ∧
    (Table.default.insertAll [10, 20, 30]).1.Nodup ∧
    ∀ i (hi : i < 3),
      (Table.default.insertAll [10, 20, 30]).2.getMut (UInt32.ofNat i) = some [10, 20, 30][i] :=
  ⟨by decide, insertAll_keys_fresh [10, 20, 30] (by decide)⟩

/-- In a fresh table, the insert after `2^32` inserts returns key 0 again, the key of the
first insert, and `get_mut(0)` then finds the new value in place of the first. -/
theorem insert_after_wrap_reuses_key :
    ((Table.default : Table Nat).insert 1).1 = 0 ∧
    (((Table.default : Table Nat).insertAll (1 :: List.replicate (2 ^ 32 - 1) 2)).2.insert 3).1 =
      0 ∧
    (((Table.default : Table Nat).insertAll (1 :: List.replicate (2 ^ 32 - 1) 2)).2.insert
      3).2.getMut 0 = some 3 := by
  have hnext : ((Table.default : Table Nat).insertAll
      (1 :: List.replicate (2 ^ 32 - 1) 2)).2.nextKey = 0 := by
    rw [nextKey_insertAll, List.length_cons, List.length_replicate]
    rfl
  refine ⟨rfl, by rw [insert_fst, hnext], ?_⟩
  rw [getMut_insert, hnext, if_pos rfl]

end Wasmfxtime.WasiNn
