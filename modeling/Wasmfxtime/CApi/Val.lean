import Mathlib.Data.BitVec
import Mathlib.Data.Nat.Defs

/-! # Values across the C API

`wasmtime_val_t::from_val` writes a `Val` into the C value: the kind, and the union field
that kind names. `to_val` reads it back by the kind. A `v128` crosses as its sixteen
little-endian bytes, a null `funcref` as the store id and index `0, 0`, and a reference as a
box of the root it is given, or as null when it cannot be rooted.
-/

namespace Wasmfxtime.CApi

/-! ## Little-endian bytes -/

def byteNumber : List (BitVec 8) → Nat
  | [] => 0
  | b :: bs => b.toNat + 256 * byteNumber bs

def numberBytes (n : Nat) : Nat → List (BitVec 8)
  | 0 => []
  | k + 1 => BitVec.ofNat 8 n :: numberBytes (n / 256) k

theorem length_numberBytes (n k : Nat) : (numberBytes n k).length = k := by
  induction k generalizing n with
  | zero => rfl
  | succ k ih => simp [numberBytes, ih]

theorem byteNumber_numberBytes (n k : Nat) : byteNumber (numberBytes n k) = n % 256 ^ k := by
  induction k generalizing n with
  | zero => simp [numberBytes, byteNumber, Nat.mod_one]
  | succ k ih =>
    have hbyte : (BitVec.ofNat 8 n).toNat = n % 256 := BitVec.toNat_ofNat n 8
    rw [numberBytes, byteNumber, ih, hbyte, pow_succ', @Nat.mod_mul 256]

theorem byteNumber_lt (bs : List (BitVec 8)) : byteNumber bs < 256 ^ bs.length := by
  induction bs with
  | nil => decide
  | cons b bs ih =>
    have hb := b.isLt
    simp only [byteNumber, List.length_cons, pow_succ']
    change b.toNat < 256 at hb
    omega

theorem numberBytes_byteNumber (bs : List (BitVec 8)) :
    numberBytes (byteNumber bs) bs.length = bs := by
  induction bs with
  | nil => rfl
  | cons b bs ih =>
    have hb : b.toNat < 256 := b.isLt
    have hdiv : (b.toNat + 256 * byteNumber bs) / 256 = byteNumber bs := by omega
    rw [List.length_cons, numberBytes, byteNumber, hdiv, ih]
    congr 1
    apply BitVec.eq_of_toNat_eq
    simp only [BitVec.toNat_ofNat]
    omega

@[ext]
structure Bytes16 where
  bytes : List (BitVec 8)
  length_eq : bytes.length = 16
  deriving DecidableEq

def toLeBytes (x : BitVec 128) : Bytes16 := ⟨numberBytes x.toNat 16, length_numberBytes _ _⟩

def fromLeBytes (b : Bytes16) : BitVec 128 := BitVec.ofNat 128 (byteNumber b.bytes)

theorem fromLeBytes_toLeBytes (x : BitVec 128) : fromLeBytes (toLeBytes x) = x := by
  apply BitVec.eq_of_toNat_eq
  have hlt : x.toNat < 256 ^ 16 := x.isLt
  simp only [fromLeBytes, toLeBytes, byteNumber_numberBytes, BitVec.toNat_ofNat,
    Nat.mod_eq_of_lt hlt]
  exact Nat.mod_eq_of_lt x.isLt

theorem toLeBytes_fromLeBytes (b : Bytes16) : toLeBytes (fromLeBytes b) = b := by
  ext1
  have hlt : byteNumber b.bytes < 2 ^ 128 := by
    have := byteNumber_lt b.bytes
    rwa [b.length_eq] at this
  simp only [toLeBytes, fromLeBytes, BitVec.toNat_ofNat, Nat.mod_eq_of_lt hlt]
  conv_lhs => rw [← b.length_eq]
  exact numberBytes_byteNumber b.bytes

/-! ## Values and their C form -/

inductive Val (Func AnyRef ExternRef : Type)
  | I32 (i : BitVec 32)
  | I64 (i : BitVec 64)
  | F32 (bits : BitVec 32)
  | F64 (bits : BitVec 64)
  | V128 (v : BitVec 128)
  | FuncRef (f : Option Func)
  | ExternRef (e : Option ExternRef)
  | AnyRef (a : Option AnyRef)
  deriving DecidableEq

structure WasmtimeFuncT where
  storeId : UInt64
  index : UInt64
  deriving DecidableEq

/-- A `wasmtime_val_t` as `to_val` reads it: for each kind the union field that the kind
names, and any other kind. A reference field is a box of a root, or null. -/
inductive WasmtimeValT (MAnyRef MExternRef : Type)
  | I32 (i32 : BitVec 32)
  | I64 (i64 : BitVec 64)
  | F32 (f32 : BitVec 32)
  | F64 (f64 : BitVec 64)
  | V128 (v128 : Bytes16)
  | FuncRef (funcref : WasmtimeFuncT)
  | ExternRef (externref : Option MExternRef)
  | AnyRef (anyref : Option MAnyRef)
  | Other (kind : UInt8)
  deriving DecidableEq

structure Rooting (Ref MRef : Type) where
  toManuallyRooted : Ref → Option MRef
  toRooted : MRef → Ref

def Rooting.Lawful {Ref MRef : Type} (r : Rooting Ref MRef) : Prop :=
  ∀ a m, r.toManuallyRooted a = some m → r.toRooted m = a

structure FuncLayout (Func : Type) where
  toC : Func → WasmtimeFuncT
  ofC : WasmtimeFuncT → Func

/-- The transmutes undo each other on functions, and no function has the layout of the null
`funcref`: its store id is a `NonZeroU64`. -/
structure FuncLayout.Lawful {Func : Type} (l : FuncLayout Func) : Prop where
  ofC_toC : ∀ f, l.ofC (l.toC f) = f
  toC_ne_null : ∀ f, l.toC f ≠ ⟨0, 0⟩

variable {Func AnyRef ExternRef MAnyRef MExternRef : Type} (layout : FuncLayout Func)
  (anyRoot : Rooting AnyRef MAnyRef) (externRoot : Rooting ExternRef MExternRef)

def fromVal : Val Func AnyRef ExternRef → WasmtimeValT MAnyRef MExternRef
  | .I32 i => .I32 i
  | .I64 i => .I64 i
  | .F32 i => .F32 i
  | .F64 i => .F64 i
  | .AnyRef a => .AnyRef (a.bind anyRoot.toManuallyRooted)
  | .ExternRef e => .ExternRef (e.bind externRoot.toManuallyRooted)
  | .FuncRef func =>
    .FuncRef (match func with
      | none => ⟨0, 0⟩
      | some func => layout.toC func)
  | .V128 val => .V128 (toLeBytes val)

def toVal : WasmtimeValT MAnyRef MExternRef → Except String (Val Func AnyRef ExternRef)
  | .I32 i32 => .ok (.I32 i32)
  | .I64 i64 => .ok (.I64 i64)
  | .F32 f32 => .ok (.F32 f32)
  | .F64 f64 => .ok (.F64 f64)
  | .V128 v128 => .ok (.V128 (fromLeBytes v128))
  | .AnyRef anyref => .ok (.AnyRef (anyref.map anyRoot.toRooted))
  | .ExternRef externref => .ok (.ExternRef (externref.map externRoot.toRooted))
  | .FuncRef funcref =>
    .ok (.FuncRef (if funcref.storeId = 0 ∧ funcref.index = 0 then none else some (layout.ofC funcref)))
  | .Other kind => .error ("unknown wasmtime_valkind_t: " ++ toString kind)

def valCopy (src : WasmtimeValT MAnyRef MExternRef) :
    Except String (WasmtimeValT MAnyRef MExternRef) :=
  (toVal layout anyRoot externRoot src).map (fromVal layout anyRoot externRoot)

/-! ## Round trips -/

theorem funcT_eq_null_iff (w : WasmtimeFuncT) : (w.storeId = 0 ∧ w.index = 0) ↔ w = ⟨0, 0⟩ := by
  cases w
  simp

/-- A value written into a C value reads back as itself, except a reference that cannot be
rooted, which crosses as null. -/
theorem toVal_fromVal (hl : layout.Lawful) (ha : anyRoot.Lawful) (he : externRoot.Lawful)
    (v : Val Func AnyRef ExternRef) :
    toVal layout anyRoot externRoot (fromVal layout anyRoot externRoot v) = .ok v ∨
    (∃ a, v = .AnyRef (some a) ∧ anyRoot.toManuallyRooted a = none ∧
      toVal layout anyRoot externRoot (fromVal layout anyRoot externRoot v) = .ok (.AnyRef none)) ∨
    (∃ e, v = .ExternRef (some e) ∧ externRoot.toManuallyRooted e = none ∧
      toVal layout anyRoot externRoot (fromVal layout anyRoot externRoot v) =
        .ok (.ExternRef none)) := by
  cases v with
  | I32 | I64 | F32 | F64 => exact .inl rfl
  | V128 x => exact .inl (by simp [fromVal, toVal, fromLeBytes_toLeBytes])
  | FuncRef f =>
    refine .inl ?_
    cases f with
    | none => rfl
    | some f => simp [fromVal, toVal, funcT_eq_null_iff, hl.toC_ne_null, hl.ofC_toC]
  | AnyRef a =>
    rcases a with _ | a
    · exact .inl rfl
    cases hr : anyRoot.toManuallyRooted a with
    | none => exact .inr (.inl ⟨a, rfl, hr, by simp [fromVal, toVal, hr]⟩)
    | some m => exact .inl (by simp [fromVal, toVal, hr, ha a m hr])
  | ExternRef e =>
    rcases e with _ | e
    · exact .inl rfl
    cases hr : externRoot.toManuallyRooted e with
    | none => exact .inr (.inr ⟨e, rfl, hr, by simp [fromVal, toVal, hr]⟩)
    | some m => exact .inl (by simp [fromVal, toVal, hr, he e m hr])

def nonzeroLayout : FuncLayout {w : WasmtimeFuncT // w.storeId ≠ 0} where
  toC := Subtype.val
  ofC w := if h : w.storeId ≠ 0 then ⟨w, h⟩ else ⟨⟨1, w.index⟩, show (1 : UInt64) ≠ 0 by decide⟩

theorem nonzeroLayout_lawful : nonzeroLayout.Lawful :=
  ⟨fun f => by simp [nonzeroLayout, f.2], fun f h => f.2 (congrArg WasmtimeFuncT.storeId h)⟩

def selfRooting : Rooting Nat Nat := ⟨some, id⟩

theorem selfRooting_lawful : selfRooting.Lawful := fun _ _ h => (Option.some.inj h).symm

theorem toVal_fromVal_anyref :
    let v : Val {w : WasmtimeFuncT // w.storeId ≠ 0} Nat Nat := .AnyRef (some 7)
    nonzeroLayout.Lawful ∧ selfRooting.Lawful ∧ selfRooting.Lawful ∧
    (toVal nonzeroLayout selfRooting selfRooting
        (fromVal nonzeroLayout selfRooting selfRooting v) = .ok v ∨
      (∃ a, v = .AnyRef (some a) ∧ selfRooting.toManuallyRooted a = none ∧
        toVal nonzeroLayout selfRooting selfRooting (fromVal nonzeroLayout selfRooting selfRooting v) =
          .ok (.AnyRef none)) ∨
      (∃ e, v = .ExternRef (some e) ∧ selfRooting.toManuallyRooted e = none ∧
        toVal nonzeroLayout selfRooting selfRooting (fromVal nonzeroLayout selfRooting selfRooting v) =
          .ok (.ExternRef none))) :=
  ⟨nonzeroLayout_lawful, selfRooting_lawful, selfRooting_lawful,
    toVal_fromVal nonzeroLayout selfRooting selfRooting nonzeroLayout_lawful selfRooting_lawful
      selfRooting_lawful _⟩

/-- The C values that `to_val` reads without a root: the number kinds, and a `funcref` field
that is null or holds a function. -/
def WasmtimeValT.Plain : WasmtimeValT MAnyRef MExternRef → Prop
  | .I32 _ | .I64 _ | .F32 _ | .F64 _ | .V128 _ => True
  | .FuncRef funcref => funcref = ⟨0, 0⟩ ∨ ∃ f, layout.toC f = funcref
  | _ => False

/-- `wasmtime_val_copy` copies a value of a number kind or a `funcref` bit for bit, the
sixteen `v128` bytes included; it copies a reference as a new root that reads back as the same
reference, when the reference can be rooted again. -/
theorem valCopy_reads_back (hl : layout.Lawful) (ha : anyRoot.Lawful) (he : externRoot.Lawful)
    (w : WasmtimeValT MAnyRef MExternRef) :
    (w.Plain layout → valCopy layout anyRoot externRoot w = .ok w) ∧
    (∀ m, w = .AnyRef (some m) → (anyRoot.toManuallyRooted (anyRoot.toRooted m)).isSome →
      (valCopy layout anyRoot externRoot w).bind (toVal layout anyRoot externRoot) =
        toVal layout anyRoot externRoot w) ∧
    (∀ m, w = .ExternRef (some m) → (externRoot.toManuallyRooted (externRoot.toRooted m)).isSome →
      (valCopy layout anyRoot externRoot w).bind (toVal layout anyRoot externRoot) =
        toVal layout anyRoot externRoot w) := by
  refine ⟨fun hw => ?_, ?_, ?_⟩
  · cases w with
    | I32 | I64 | F32 | F64 => rfl
    | V128 b => simp [valCopy, toVal, fromVal, toLeBytes_fromLeBytes, Except.map]
    | FuncRef funcref =>
      rcases hw with rfl | ⟨f, rfl⟩
      · rfl
      · simp [valCopy, toVal, fromVal, funcT_eq_null_iff, hl.toC_ne_null, hl.ofC_toC, Except.map]
    | ExternRef | AnyRef | Other => exact hw.elim
  · rintro m rfl hs
    obtain ⟨m', hm'⟩ := Option.isSome_iff_exists.mp hs
    simp [valCopy, toVal, fromVal, hm', ha _ _ hm', Except.map, Except.bind, bind]
  · rintro m rfl hs
    obtain ⟨m', hm'⟩ := Option.isSome_iff_exists.mp hs
    simp [valCopy, toVal, fromVal, hm', he _ _ hm', Except.map, Except.bind, bind]

-- A `v128` of the bytes `0, 1, …, 15`.
theorem valCopy_reads_back_v128 :
    let w : WasmtimeValT Nat Nat := .V128 ⟨(List.range 16).map (BitVec.ofNat 8), rfl⟩
    nonzeroLayout.Lawful ∧ selfRooting.Lawful ∧ selfRooting.Lawful ∧
    (w.Plain nonzeroLayout → valCopy nonzeroLayout selfRooting selfRooting w = .ok w) ∧
    (∀ m, w = .AnyRef (some m) → (selfRooting.toManuallyRooted (selfRooting.toRooted m)).isSome →
      (valCopy nonzeroLayout selfRooting selfRooting w).bind
        (toVal nonzeroLayout selfRooting selfRooting) = toVal nonzeroLayout selfRooting selfRooting w) ∧
    (∀ m, w = .ExternRef (some m) →
      (selfRooting.toManuallyRooted (selfRooting.toRooted m)).isSome →
      (valCopy nonzeroLayout selfRooting selfRooting w).bind
        (toVal nonzeroLayout selfRooting selfRooting) = toVal nonzeroLayout selfRooting selfRooting w) :=
  ⟨nonzeroLayout_lawful, selfRooting_lawful, selfRooting_lawful,
    valCopy_reads_back nonzeroLayout selfRooting selfRooting nonzeroLayout_lawful
      selfRooting_lawful selfRooting_lawful _⟩

end Wasmfxtime.CApi
