import Wasmfxtime.Pcc.Inst

/-! # What the AArch64 instructions compute

Register values are 64 bits wide. A `w`-bit operation leaves the low `w` bits of its
64-bit result, zero-extended, as writes to a `W` register do.
-/

namespace Wasmfxtime.Pcc

abbrev Regs := Reg → BitVec 64

def lowBits (w : Nat) (v : BitVec 64) : BitVec 64 := BitVec.ofNat 64 (v.toNat % 2 ^ w)

def sext (m n : Nat) (x : BitVec 64) : BitVec 64 := ((x.setWidth m).signExtend n).setWidth 64

@[simp] theorem lowBits_64 (v : BitVec 64) : lowBits 64 v = v := by
  apply BitVec.eq_of_toNat_eq
  simp [lowBits, Nat.mod_eq_of_lt v.isLt]

theorem OperandSize.bits_le (size : OperandSize) : size.bits ≤ 64 := by cases size <;> decide

theorem toNat_lowBits {w : Nat} (v : BitVec 64) (h : w ≤ 64) :
    (lowBits w v).toNat = v.toNat % 2 ^ w := by
  simp only [lowBits, BitVec.toNat_ofNat]
  apply Nat.mod_eq_of_lt
  calc v.toNat % 2 ^ w < 2 ^ w := Nat.mod_lt _ (Nat.two_pow_pos w)
    _ ≤ 2 ^ 64 := Nat.pow_le_pow_right (by decide) h

def ExtendOp.extend (op : ExtendOp) (x : BitVec 64) : BitVec 64 :=
  match op with
  | .UXTB => lowBits 8 x | .UXTH => lowBits 16 x | .UXTW => lowBits 32 x | .UXTX => x
  | .SXTB => sext 8 64 x | .SXTH => sext 16 64 x | .SXTW => sext 32 64 x | .SXTX => x

/-! ## Addresses -/

/-- The address that an access of `bytes` bytes through `addr` computes; a scaled register
is scaled by the access size. `none` for the modes relative to the stack, the frame, a
label or the constant pool. -/
def AMode.effectiveAddress (regs : Regs) (bytes : Nat) : AMode → Option (BitVec 64)
  | .RegReg rn rm => some (regs rn + regs rm)
  | .RegScaled rn rm _ => some (regs rn + regs rm * BitVec.ofNat 64 bytes)
  | .RegScaledExtended rn rm _ op => some (regs rn + op.extend (regs rm) * BitVec.ofNat 64 bytes)
  | .RegExtended rn rm op => some (regs rn + op.extend (regs rm))
  | .Unscaled rn simm9 => some (regs rn + BitVec.ofInt 64 simm9.value)
  | .UnsignedOffset rn uimm12 => some (regs rn + BitVec.ofNat 64 uimm12.value)
  | .RegOffset rn off _ => some (regs rn + BitVec.ofInt 64 off)
  | _ => none

-- The type of a scaled mode's own `ty` field, which the encoding requires to be the access type.
def AMode.scaleTy : AMode → Option Ty
  | .RegScaled _ _ ty | .RegScaledExtended _ _ ty _ => some ty
  | _ => none

namespace Inst

def memFlags : Inst → Option MemFlags
  | .Load _ _ _ flags | .LoadPair _ _ _ _ flags | .VecLoadReplicate _ _ _ flags
  | .LoadAcquire _ _ _ flags | .Store _ _ _ flags | .StorePair _ _ _ _ flags
  | .StoreRelease _ _ _ flags => some flags
  | _ => none

def accessTy : Inst → Option Ty
  | .Load op _ _ _ => some op.ty
  | .Store op _ _ _ => some op.ty
  | .VecLoadReplicate _ _ size _ => some size.laneSize.ty
  | .LoadAcquire ty _ _ _ | .StoreRelease ty _ _ _ => some ty
  | _ => none

def effectiveAddress (regs : Regs) : Inst → Option (BitVec 64)
  | .Load op _ mem _ => mem.effectiveAddress regs op.ty.bytes
  | .Store op _ mem _ => mem.effectiveAddress regs op.ty.bytes
  | .VecLoadReplicate _ rn _ _ | .LoadAcquire _ _ rn _ | .StoreRelease _ _ rn _ => some (regs rn)
  | _ => none

def ScaledByAccessTy : Inst → Prop
  | .Load op _ mem _ => ∀ ty, mem.scaleTy = some ty → ty = op.ty
  | .Store op _ mem _ => ∀ ty, mem.scaleTy = some ty → ty = op.ty
  | _ => True

end Inst

/-! ## Move-wide instructions -/

def MoveWideConst.chunk (imm : MoveWideConst) : BitVec 64 :=
  BitVec.ofNat 64 imm.bits <<< (imm.shift * 16)

def MoveWideConst.slot (imm : MoveWideConst) : BitVec 64 :=
  BitVec.ofNat 64 0xFFFF <<< (imm.shift * 16)

def movz (imm : MoveWideConst) (size : OperandSize) : BitVec 64 := lowBits size.bits imm.chunk

def movn (imm : MoveWideConst) (size : OperandSize) : BitVec 64 :=
  lowBits size.bits (~~~imm.chunk)

def movk (prev : BitVec 64) (imm : MoveWideConst) (size : OperandSize) : BitVec 64 :=
  lowBits size.bits ((prev &&& ~~~imm.slot) ||| imm.chunk)

-- The 32-bit move-wide forms have only the two low slots.
def MoveWideConst.FitsIn (imm : MoveWideConst) (size : OperandSize) : Prop :=
  imm.shift * 16 < size.bits

instance (imm : MoveWideConst) (size : OperandSize) : Decidable (imm.FitsIn size) :=
  inferInstanceAs (Decidable (_ < _))

/-! ## Register instructions -/

/-- The values an instruction can leave in its destination, given the registers before it.
The ALU operations whose result `check` derives no fact for are left open: each writes some
value of its operand size. A load writes the value it reads, which is left open too. The
instructions `check` does not match write nothing here. -/
def Inst.Writes (regs : Regs) : Inst → BitVec 64 → Prop
  | .AluRRR aluOp size _ rn rm, v =>
    if aluOp = .Add then v = lowBits size.bits (regs rn + regs rm) else v.toNat < 2 ^ size.bits
  | .AluRRImm12 aluOp size _ rn imm12, v =>
    if aluOp = .Add then v = lowBits size.bits (regs rn + BitVec.ofNat 64 imm12.value)
    else v.toNat < 2 ^ size.bits
  | .AluRRRShift aluOp size _ rn rm shiftop, v =>
    if aluOp = .Add ∧ shiftop.op = .LSL then
      v = lowBits size.bits (regs rn + (regs rm <<< shiftop.amt))
    else v.toNat < 2 ^ size.bits
  | .AluRRRExtend aluOp size _ rn rm extendop, v =>
    if aluOp = .Add then v = lowBits size.bits (regs rn + extendop.extend (regs rm))
    else v.toNat < 2 ^ size.bits
  | .AluRRImmLogic _ size _ _ _, v => v.toNat < 2 ^ size.bits
  | .AluRRImmShift aluOp size _ rn immshift, v =>
    if aluOp = .Lsl then v = lowBits size.bits (regs rn <<< immshift.value)
    else v.toNat < 2 ^ size.bits
  | .Extend _ rn signed fromBits toBits, v =>
    v = if signed then sext fromBits toBits (regs rn) else lowBits fromBits (regs rn)
  | .MovWide .MovZ _ imm size, v => imm.FitsIn size ∧ v = movz imm size
  | .MovWide .MovN _ imm size, v => v = movn imm size
  | .MovK _ rn imm size, v => imm.FitsIn size ∧ v = movk (regs rn) imm size
  | .Load .., _ | .VecLoadReplicate .., _ | .LoadAcquire .., _ => True
  | _, _ => False

def Inst.IsStore : Inst → Prop
  | .Store .. | .StorePair .. | .StoreRelease .. => True
  | _ => False

def Inst.WritesDefs : Inst → Prop
  | .Args _ | .LoadPair .. | .Other .. => True
  | _ => False

/-- One instruction's effect on the registers: a single destination takes a value that
`Writes` allows, every register of `defs` takes any value, or a store leaves them. -/
inductive Step : Regs → Inst → Regs → Prop
  | write {regs : Regs} {inst : Inst} {rd : Reg} {v : BitVec 64} :
    inst.dest = some rd → inst.Writes regs v → Step regs inst (Function.update regs rd v)
  | writeDefs {regs : Regs} {inst : Inst} (vals : Regs) :
    inst.WritesDefs → Step regs inst fun r => if r ∈ inst.defs then vals r else regs r
  | store {regs : Regs} {inst : Inst} : inst.IsStore → Step regs inst regs

inductive Run : Regs → List Inst → Regs → Prop
  | nil (regs : Regs) : Run regs [] regs
  | cons {regs regs₁ regs₂ : Regs} {inst : Inst} {insts : List Inst} :
    Step regs inst regs₁ → Run regs₁ insts regs₂ → Run regs (inst :: insts) regs₂

theorem Run.frame {regs regs' : Regs} {insts : List Inst} (h : Run regs insts regs') {r : Reg}
    (hr : ∀ inst ∈ insts, r ∉ inst.defs) : regs' r = regs r := by
  induction h with
  | nil => rfl
  | cons hstep _ ih =>
    rw [ih fun i hi => hr i (List.mem_cons_of_mem _ hi)]
    have hr' := hr _ (List.mem_cons_self _ _)
    cases hstep with
    | write hd _ =>
      exact Function.update_noteq (fun h : r = _ => hr' (h ▸ Inst.dest_mem_defs hd)) _ _
    | writeDefs => exact if_neg hr'
    | store => rfl

/-- A `MOVK` whose result is the OR of the previous value and its chunk: the previous value
has no bit in the slot that the chunk leaves clear, nor, in the 32-bit form, above bit 31. -/
def Inst.MovKIsOr (regs : Regs) : Inst → Prop
  | .MovK _ rn imm size => movk (regs rn) imm size = regs rn ||| imm.chunk
  | _ => True

end Wasmfxtime.Pcc
