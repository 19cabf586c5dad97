import Wasmfxtime.Pcc.Ranges

/-! # The accesses `check` validates

Every checked access that `check` accepts hands `ctx.load` or `ctx.store` a fact that
holds of the address the instruction computes, when a scaled mode carries the access type.
-/

namespace Wasmfxtime.Pcc

variable {Fact : Type}

/-- The address fact and the type that `check` hands to `ctx.load` or `ctx.store` for a
single-register access, computed as its arms compute them. -/
def accessFact (ctx : FactContext Fact) (vcode : VCode Fact) :
    Inst → PccResult (Option (Fact × Ty))
  | .Load op _ mem _ => amodeFact ctx vcode mem op.ty
  | .Store op _ mem _ => amodeFact ctx vcode mem op.ty
  | .VecLoadReplicate _ rn size _ =>
    (getFactOrDefault ctx vcode rn).map fun f => some (f, size.laneSize.ty)
  | .LoadAcquire ty _ rn _ | .StoreRelease ty _ rn _ =>
    (getFactOrDefault ctx vcode rn).map fun f => some (f, ty)
  | _ => .ok none

def AccessSucceeds (ctx : FactContext Fact) (vcode : VCode Fact) (addr : Fact) (ty : Ty) :
    Inst → Prop
  | .Store op rd _ _ => ctx.store addr ty ((op.storedReg rd).bind vcode.vregFact) = .ok ()
  | .StoreRelease .. => ctx.store addr ty none = .ok ()
  | _ => ∃ loaded, ctx.load addr ty = .ok loaded

/-- An accepted access is bounds-checked when `check` handed a successful load or store a
fact that holds of the address the instruction computes, with a type of the access's size. -/
def BoundsChecked (ctx : FactContext Fact) (holds : Fact → BitVec 64 → Prop)
    (vcode : VCode Fact) (regs : Regs) (inst : Inst) : Prop :=
  ∃ a t ea ty, accessFact ctx vcode inst = .ok (some (a, t)) ∧
    inst.effectiveAddress regs = some ea ∧ inst.accessTy = some ty ∧ holds a ea ∧
    t.bytes = ty.bytes ∧ AccessSucceeds ctx vcode a t inst

/-! ## The bounds check reads only the operands' facts -/

def VCode.restrict (vcode : VCode Fact) (rs : List Reg) : VCode Fact :=
  ⟨fun r => if r ∈ rs then vcode.vregFact r else none, vcode.vregType⟩

theorem amodeFact_restrict (ctx : FactContext Fact) (vcode : VCode Fact) {addr : AMode}
    {rs : List Reg} (h : addr.regs ⊆ rs) (ty : Ty) :
    amodeFact ctx (vcode.restrict rs) addr ty = amodeFact ctx vcode addr ty := by
  have hg : ∀ r ∈ addr.regs,
      getFactOrDefault ctx (vcode.restrict rs) r = getFactOrDefault ctx vcode r :=
    fun r hr => by simp only [getFactOrDefault, VCode.restrict, if_pos (h hr)]
  cases addr <;> simp_all [amodeFact, AMode.regs]

theorem factsHold_restrict {holds : Fact → BitVec 64 → Prop} {vcode : VCode Fact} {regs : Regs}
    {rs : List Reg} (h : ∀ r ∈ rs, ∀ f, vcode.vregFact r = some f → holds f (regs r)) :
    FactsHold holds (vcode.restrict rs) regs := by
  intro r f hf
  simp only [VCode.restrict] at hf
  split at hf
  · exact h r ‹_› f hf
  · cases hf

section Contract

variable {ctx : FactContext Fact} {holds : Fact → BitVec 64 → Prop} (hs : ctx.Sound holds)
  {vcode : VCode Fact} {regs : Regs}
include hs

theorem checkAddr_sound {flags : MemFlags} {addr : AMode} {ty : Ty} {op : LoadOrStore Fact}
    (hf : ∀ r ∈ addr.regs, ∀ f, vcode.vregFact r = some f → holds f (regs r))
    (hchecked : flags.checked = true) (hscale : ∀ t, addr.scaleTy = some t → t = ty)
    {ea : BitVec 64} (hea : addr.effectiveAddress regs ty.bytes = some ea)
    (h : checkAddr ctx flags addr vcode ty op = .ok ()) :
    ∃ a, amodeFact ctx vcode addr ty = .ok (some (a, ty)) ∧ holds a ea ∧
      checkAccess ctx op a ty = .ok () := by
  have hty : addr.scaleTy.getD ty = ty := by
    cases ht : addr.scaleTy with
    | none => rfl
    | some t => exact hscale t ht
  have hr := amodeFact_restrict ctx vcode (List.Subset.refl addr.regs) ty
  simp only [checkAddr, hchecked, Bool.not_true, Bool.false_eq_true, if_false, bind_eq_ok] at h
  obtain ⟨o, ho, hcheck⟩ := h
  obtain ⟨a, rfl, ha⟩ := amodeFact_sound hs (factsHold_restrict hf) (hr.trans ho) (hty ▸ hea)
  rw [hty] at ho hcheck
  exact ⟨a, ho, ha, hcheck⟩

theorem check_access_bounds_of_uses {inst : Inst}
    (hf : ∀ r ∈ inst.uses, ∀ f, vcode.vregFact r = some f → holds f (regs r))
    {flags : MemFlags} (hflags : inst.memFlags = some flags) (hchecked : flags.checked = true)
    (hreg : inst.effectiveAddress regs ≠ none) (hscaled : inst.ScaledByAccessTy)
    (hok : (check ctx vcode inst).1 = .ok ()) : BoundsChecked ctx holds vcode regs inst := by
  obtain ⟨ea, hea⟩ := Option.ne_none_iff_exists'.mp hreg
  cases inst <;> simp only [Inst.memFlags, Option.some.injEq, reduceCtorEq] at hflags <;>
    simp only [Inst.effectiveAddress, reduceCtorEq] at hea <;> subst hflags <;>
    simp only [check] at hok
  case Load op rd mem flags =>
    obtain ⟨a, ha, hholds, hacc⟩ := checkAddr_sound hs hf hchecked hscaled hea hok
    obtain ⟨lf, hlf, -⟩ := bind_eq_ok.mp hacc
    exact ⟨a, op.ty, ea, op.ty, ha, hea, rfl, hholds, rfl, lf, hlf⟩
  case Store op rd mem flags =>
    obtain ⟨a, ha, hholds, hacc⟩ := checkAddr_sound hs
      (fun r hr => hf r (List.mem_cons_of_mem _ hr)) hchecked hscaled hea hok
    exact ⟨a, op.ty, ea, op.ty, ha, hea, rfl, hholds, rfl, hacc⟩
  case VecLoadReplicate | LoadAcquire | StoreRelease =>
    simp only [checkLoadAddr, checkStoreAddr, hchecked, Bool.not_true, Bool.false_eq_true,
      if_false, bind_eq_ok] at hok
    obtain ⟨f, hfact, out, hout, -⟩ := hok
    cases hea
    refine ⟨f, _, _, _, by simp only [accessFact, hfact]; rfl, rfl, rfl,
      getFactOrDefault_sound hs (hf _ (by simp [Inst.uses])) hfact, rfl, ?_⟩
    first | exact ⟨out, hout⟩ | exact hout

end Contract

/-! ## Scaled loads over a region of memory

`x0` points at the start of region 0, placed at `0x1000`, and the index `x1` is 1. -/

open RangeFact

-- `ldr x2, [x0, x1, lsl #k]`, checked, whose scaled mode carries the type `ty`.
def ldrScaled (ty : Ty) : Inst :=
  .Load .ULoad64 ⟨2, .Int⟩ (.RegScaled ⟨0, .Int⟩ ⟨1, .Int⟩ ty) ⟨true⟩

/-- A checked `ldar x2, [x0]` reads eight bytes of the 8-byte region 0, so `ctx.load`
derives the full 64-bit range, which does not subsume the fact `x2 = 5` declared on the
destination. `check` accepts it all the same, while a `ldr` of the same address and
destination is rejected. -/
theorem check_loadAcquire_unchecked_declared_fact :
    (rangeContext fun _ => 8).load (mem 0 0 0) .I64 = .ok (some (maxRange 64)) ∧
    (rangeContext fun _ => 8).subsumesFactOptionals (some (maxRange 64)) (some (range 64 5 5)) =
      false ∧
    (check (rangeContext fun _ => 8)
      ⟨fun r => if r = ⟨0, .Int⟩ then some (mem 0 0 0)
        else if r = ⟨2, .Int⟩ then some (range 64 5 5) else none, fun _ => .I64⟩
      (.LoadAcquire .I64 ⟨2, .Int⟩ ⟨0, .Int⟩ ⟨true⟩)).1 = .ok () ∧
    (check (rangeContext fun _ => 8)
      ⟨fun r => if r = ⟨0, .Int⟩ then some (mem 0 0 0)
        else if r = ⟨2, .Int⟩ then some (range 64 5 5) else none, fun _ => .I64⟩
      (.Load .ULoad64 ⟨2, .Int⟩ (.RegOffset ⟨0, .Int⟩ 0 .I64) ⟨true⟩)).1 =
      .error .UnsupportedFact :=
  ⟨rfl, rfl, rfl, rfl⟩

end Wasmfxtime.Pcc
