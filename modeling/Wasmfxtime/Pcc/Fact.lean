import Mathlib.Logic.Function.Basic
import Wasmfxtime.Pcc.Inst

/-! # Facts and the per-register fact store

`pcc.rs` uses facts only through the `Fact` functions and the `FactContext` methods it
calls. That code lives in `ir::pcc`, outside this file, so the fact type and those
operations are parameters here.
-/

namespace Wasmfxtime.Pcc

inductive PccError
  | MissingFact | UnsupportedFact | UnimplementedInst | OutOfBounds
  deriving DecidableEq, Repr

abbrev PccResult (α : Type) := Except PccError α

@[simp] theorem bind_eq_ok {α β : Type} {x : PccResult α} {f : α → PccResult β} {b : β} :
    x >>= f = .ok b ↔ ∃ a, x = .ok a ∧ f a = .ok b := by
  cases x <;> simp [bind, Except.bind]

/-- The operations of `ir::pcc` that `pcc.rs` calls, over a fact type `Fact`. Widths are
bit counts; constants are `u64`s. -/
structure FactContext (Fact : Type) where
  /-- `Fact::constant(bit_width, value)` -/
  constant : Nat → BitVec 64 → Fact
  /-- `Fact::max_range_for_width(bit_width)` -/
  maxRangeForWidth : Nat → Fact
  /-- `Fact::infer_from_type(ty)` -/
  inferFromType : Ty → Option Fact
  /-- `fact.as_const(bits)` -/
  asConst : Fact → Nat → Option (BitVec 64)
  /-- `fact.propagates()` -/
  propagates : Fact → Bool
  /-- `matches!(fact, Fact::Mem { .. })` -/
  isMem : Fact → Bool
  add : Fact → Fact → Nat → Option Fact
  shl : Fact → Nat → Nat → Option Fact
  scale : Fact → Nat → Nat → Option Fact
  offset : Fact → Nat → Int → Option Fact
  uextend : Fact → Nat → Nat → Option Fact
  sextend : Fact → Nat → Nat → Option Fact
  load : Fact → Ty → PccResult (Option Fact)
  store : Fact → Ty → Option Fact → PccResult Unit
  subsumes : Fact → Fact → Bool
  subsumesFactOptionals : Option Fact → Option Fact → Bool

/-- The part of `VCode<Inst>` that `pcc.rs` reads and writes: each virtual register's
fact and type. -/
structure VCode (Fact : Type) where
  vregFact : Reg → Option Fact
  vregType : Reg → Ty

namespace VCode

variable {Fact : Type}

def setVregFact (vc : VCode Fact) (vreg : Reg) (fact : Fact) : VCode Fact :=
  { vc with vregFact := Function.update vc.vregFact vreg (some fact) }

/-- Modelled from the spec: `VCode::inst_defines_facts`, true when some register that the
instruction defines carries a fact. -/
def instDefinesFacts (vc : VCode Fact) (inst : Inst) : Bool :=
  inst.defs.any fun r => (vc.vregFact r).isSome

@[simp] theorem setVregFact_vregType (vc : VCode Fact) (r : Reg) (f : Fact) :
    (vc.setVregFact r f).vregType = vc.vregType := rfl

@[simp] theorem vregFact_setVregFact_self (vc : VCode Fact) (r : Reg) (f : Fact) :
    (vc.setVregFact r f).vregFact r = some f := by
  simp [setVregFact]

theorem vregFact_setVregFact_of_ne (vc : VCode Fact) {r r' : Reg} (f : Fact) (h : r' ≠ r) :
    (vc.setVregFact r f).vregFact r' = vc.vregFact r' := by
  simp [setVregFact, h]

theorem setVregFact_comm (vc : VCode Fact) {r r' : Reg} (f f' : Fact) (h : r ≠ r') :
    (vc.setVregFact r f).setVregFact r' f' = (vc.setVregFact r' f').setVregFact r f := by
  simp only [setVregFact, Function.update_comm h]

end VCode

end Wasmfxtime.Pcc
