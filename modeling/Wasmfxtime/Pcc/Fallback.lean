import Wasmfxtime.Pcc.Ranges

/-! # The ALU fallback and the `Add` arms before it

The fallback arm accepts a destination declared with the maximal range for its width. The
`Add` arms match first, and turn a failed `ctx.add` into `UnsupportedFact`, so an `add`
whose operand facts have no sum is rejected even where the fallback would accept it.
-/

namespace Wasmfxtime.Pcc

variable {Fact : Type} {ctx : FactContext Fact} {vcode : VCode Fact}

theorem checkAluMaxRange_ok {rd : Reg} {size : OperandSize} {F : Fact}
    (hF : vcode.vregFact rd = some F)
    (hsub : ctx.subsumes (ctx.maxRangeForWidth size.bits) F = true) :
    (checkAluMaxRange ctx vcode rd size).1 = .ok () := by
  simp only [checkAluMaxRange, checkOutput, hF]
  show checkSubsumes ctx _ F = .ok ()
  unfold checkSubsumes
  split <;> simp [hsub]

/-- The register-register `Add` arm rejects a declared fact whenever `ctx.add` derives no
sum from the operands' facts. -/
theorem check_add_error_of_add_none {rd rn rm : Reg} {size : OperandSize} {F a b : Fact}
    (hF : vcode.vregFact rd = some F) (ha : getFactOrDefault ctx vcode rn = .ok a)
    (hb : getFactOrDefault ctx vcode rm = .ok b) (hadd : ctx.add a b size.bits = none) :
    (check ctx vcode (.AluRRR .Add size rd rn rm)).1 = .error .UnsupportedFact := by
  simp only [check, if_true, checkBinop, checkOutput, hF, ha, hb, bind, Except.bind, hadd,
    failIfMissing]

open RangeFact in
/-- `add x2, x0, x1` over two unfactored 64-bit operands, into `x2` declared with the maximal
64-bit range: the fallback would accept it, and the `Add` arm rejects it, since the
operands' default ranges have no 64-bit sum. -/
theorem check_add_rejects_max_range :
    (checkAluMaxRange (rangeContext fun _ => 0)
      ⟨fun r => if r = ⟨2, .Int⟩ then some ((rangeContext fun _ => 0).maxRangeForWidth 64)
        else none, fun _ => .I64⟩ ⟨2, .Int⟩ .Size64).1 = .ok () ∧
    (check (rangeContext fun _ => 0)
      ⟨fun r => if r = ⟨2, .Int⟩ then some ((rangeContext fun _ => 0).maxRangeForWidth 64)
        else none, fun _ => .I64⟩
      (.AluRRR .Add .Size64 ⟨2, .Int⟩ ⟨0, .Int⟩ ⟨1, .Int⟩)).1 = .error .UnsupportedFact :=
  ⟨checkAluMaxRange_ok rfl rfl, check_add_error_of_add_none rfl rfl rfl rfl⟩

end Wasmfxtime.Pcc
