import Wasmfxtime.Pcc.Check
import Wasmfxtime.Pcc.Semantics

/-! # The fact context's contract

Facts mean something through a predicate `holds` on 64-bit register values. The fact
context is sound for it when each operation returns only facts that hold of the true
result. Under that contract the facts `check` derives for addresses hold.
-/

namespace Wasmfxtime.Pcc

variable {Fact : Type}

/-- The soundness contract of a fact context for `holds`. VCode leaves the bits of a
register beyond its type undefined, so a type's default fact holds of every value. -/
structure FactContext.Sound (ctx : FactContext Fact) (holds : Fact → BitVec 64 → Prop) :
    Prop where
  constant : ∀ w c, holds (ctx.constant w c) c
  maxRangeForWidth : ∀ w v, v.toNat < 2 ^ w → holds (ctx.maxRangeForWidth w) v
  inferFromType : ∀ {ty f} v, ctx.inferFromType ty = some f → holds f v
  asConst : ∀ {f c v}, ctx.asConst f 64 = some c → holds f v → v = c
  add : ∀ {a b c w x y}, ctx.add a b w = some c → holds a x → holds b y →
    holds c (lowBits w (x + y))
  shl : ∀ {a c w n x}, ctx.shl a w n = some c → holds a x → holds c (lowBits w (x <<< n))
  scale : ∀ {a c w k x}, ctx.scale a w k = some c → holds a x →
    holds c (lowBits w (x * BitVec.ofNat 64 k))
  offset : ∀ {a c w d x}, ctx.offset a w d = some c → holds a x →
    holds c (lowBits w (x + BitVec.ofInt 64 d))
  uextend : ∀ {a c m n x}, ctx.uextend a m n = some c → holds a x → holds c (lowBits m x)
  sextend : ∀ {a c m n x}, ctx.sextend a m n = some c → holds a x → holds c (sext m n x)
  subsumes : ∀ {a b v}, ctx.subsumes a b = true → holds a v → holds b v
  subsumesFactOptionals : ∀ {a b v}, ctx.subsumesFactOptionals a (some b) = true →
    ∃ a', a = some a' ∧ (holds a' v → holds b v)

def FactsHold (holds : Fact → BitVec 64 → Prop) (vcode : VCode Fact) (regs : Regs) : Prop :=
  ∀ r f, vcode.vregFact r = some f → holds f (regs r)

@[simp] theorem failIfMissing_eq_ok {o : Option Fact} {f : Fact} :
    failIfMissing o = .ok f ↔ o = some f := by
  cases o <;> simp [failIfMissing]

section Contract

variable {ctx : FactContext Fact} {holds : Fact → BitVec 64 → Prop} (hs : ctx.Sound holds)
  {vcode : VCode Fact} {regs : Regs}
include hs

theorem getFactOrDefault_sound {reg : Reg}
    (hf : ∀ f, vcode.vregFact reg = some f → holds f (regs reg)) {f : Fact}
    (h : getFactOrDefault ctx vcode reg = .ok f) : holds f (regs reg) := by
  unfold getFactOrDefault at h
  cases hv : vcode.vregFact reg with
  | some g =>
    simp only [hv, Option.some_orElse, Except.ok.injEq] at h
    exact h ▸ hf g hv
  | none =>
    simp only [hv, Option.none_orElse] at h
    split at h
    · cases h; exact hs.inferFromType _ ‹_›
    · cases h

theorem extendFact_sound {a c : Fact} {op : ExtendOp} {x : BitVec 64}
    (h : extendFact ctx a op = some c) (ha : holds a x) : holds c (op.extend x) := by
  cases op <;> simp only [extendFact, Option.some.injEq, reduceCtorEq] at h
  case UXTX => exact h ▸ ha
  all_goals first | exact hs.uextend h ha | exact hs.sextend h ha

/-- The address fact of every register-based mode holds of the address the mode computes
with the scale of the type handed over. -/
theorem amodeFact_sound (hf : FactsHold holds vcode regs) {addr : AMode} {ty : Ty}
    {o : Option (Fact × Ty)} (h : amodeFact ctx vcode addr ty = .ok o) {ea : BitVec 64}
    (hea : addr.effectiveAddress regs (addr.scaleTy.getD ty).bytes = some ea) :
    ∃ a, o = some (a, addr.scaleTy.getD ty) ∧ holds a ea := by
  have gs := fun {reg f} => getFactOrDefault_sound hs (hf reg) (f := f)
  cases addr <;>
    simp only [amodeFact, bind_eq_ok, failIfMissing_eq_ok, pure, Except.pure, Except.ok.injEq]
      at h <;>
    simp only [AMode.effectiveAddress, AMode.scaleTy, Option.getD_some, Option.getD_none,
      Option.some.injEq, reduceCtorEq] at hea ⊢
  case RegReg =>
    obtain ⟨fn, hn, fm, hm, sum, hsum, rfl⟩ := h
    have := hs.add hsum (gs hn) (gs hm)
    exact ⟨sum, rfl, by simpa [hea] using this⟩
  case RegScaled =>
    obtain ⟨fn, hn, fm, hm, sc, hsc, sum, hsum, rfl⟩ := h
    have hsc := hs.scale hsc (gs hm)
    rw [lowBits_64] at hsc
    have := hs.add hsum (gs hn) hsc
    exact ⟨sum, rfl, by simpa [hea] using this⟩
  case RegScaledExtended =>
    obtain ⟨fn, hn, fm, hm, ex, hex, sc, hsc, sum, hsum, rfl⟩ := h
    have hsc := hs.scale hsc (extendFact_sound hs hex (gs hm))
    rw [lowBits_64] at hsc
    have := hs.add hsum (gs hn) hsc
    exact ⟨sum, rfl, by simpa [hea] using this⟩
  case RegExtended =>
    obtain ⟨fn, hn, fm, hm, ex, hex, sum, hsum, rfl⟩ := h
    have := hs.add hsum (gs hn) (extendFact_sound hs hex (gs hm))
    exact ⟨sum, rfl, by simpa [hea] using this⟩
  case Unscaled | UnsignedOffset | RegOffset =>
    obtain ⟨fn, hn, sum, hsum, rfl⟩ := h
    have := hs.offset hsum (gs hn)
    exact ⟨sum, rfl, by simpa [hea] using this⟩

end Contract

end Wasmfxtime.Pcc
