import Mathlib.Data.BitVec

/-! # AArch64 VCode instructions, as `pcc.rs` sees them

Each instruction keeps the fields that `check` reads and the registers it defines and
uses. The loads and stores that `check` treats alike share a constructor, with the
source's instruction name as its `op`.
-/

namespace Wasmfxtime.Pcc

/-! ## Registers and types -/

/-- A virtual register carries its class, as in `regalloc2`. -/
inductive RegClass
  | Int | Float | Vector
  deriving DecidableEq, Repr

structure Reg where
  index : Nat
  regClass : RegClass
  deriving DecidableEq, Repr

/-- The `ir::Type`s that `pcc.rs` names. -/
inductive Ty
  | I8 | I16 | I32 | I64 | I128 | F32 | F64 | I8X16
  deriving DecidableEq, Repr

def Ty.bits : Ty → Nat
  | .I8 => 8 | .I16 => 16 | .I32 => 32 | .I64 => 64 | .I128 => 128
  | .F32 => 32 | .F64 => 64 | .I8X16 => 128

def Ty.bytes (ty : Ty) : Nat := ty.bits / 8

/-- Of the memory flags, `check` reads only whether the access is checked. -/
structure MemFlags where
  checked : Bool
  deriving DecidableEq, Repr

inductive OperandSize
  | Size32 | Size64
  deriving DecidableEq, Repr

def OperandSize.bits : OperandSize → Nat
  | .Size32 => 32 | .Size64 => 64

def OperandSize.maxValue : OperandSize → BitVec 64
  | .Size32 => 0xFFFFFFFF | .Size64 => 0xFFFFFFFFFFFFFFFF

inductive ScalarSize
  | Size8 | Size16 | Size32 | Size64 | Size128
  deriving DecidableEq, Repr

def ScalarSize.ty : ScalarSize → Ty
  | .Size8 => .I8 | .Size16 => .I16 | .Size32 => .I32 | .Size64 => .I64 | .Size128 => .I128

inductive VectorSize
  | Size8x8 | Size8x16 | Size16x4 | Size16x8 | Size32x2 | Size32x4 | Size64x2
  deriving DecidableEq, Repr

def VectorSize.laneSize : VectorSize → ScalarSize
  | .Size8x8 | .Size8x16 => .Size8
  | .Size16x4 | .Size16x8 => .Size16
  | .Size32x2 | .Size32x4 => .Size32
  | .Size64x2 => .Size64

/-! ## Operands -/

inductive ALUOp
  | Add | Sub | Orr | OrrNot | And | AndS | AndNot | Eor | EorNot | AddS | SubS
  | SMulH | UMulH | SDiv | UDiv | RotR | Lsr | Asr | Lsl | Adc | AdcS | Sbc | SbcS
  deriving DecidableEq, Repr

inductive ShiftOp
  | LSL | LSR | ASR | ROR
  deriving DecidableEq, Repr

structure ShiftOpAndAmt where
  op : ShiftOp
  amt : Nat
  amt_lt : amt < 64
  deriving DecidableEq

inductive ExtendOp
  | UXTB | UXTH | UXTW | UXTX | SXTB | SXTH | SXTW | SXTX
  deriving DecidableEq, Repr

/-- A 12-bit immediate, shifted left by 12 when `shift12` is set. -/
structure Imm12 where
  bits : Nat
  shift12 : Bool
  bits_lt : bits < 4096
  deriving DecidableEq

def Imm12.value (imm : Imm12) : Nat := imm.bits <<< (if imm.shift12 then 12 else 0)

structure ImmShift where
  imm : Nat
  imm_lt : imm < 64
  deriving DecidableEq

def ImmShift.value (imm : ImmShift) : Nat := imm.imm

/-- A logical immediate, by the value it encodes. -/
structure ImmLogic where
  value : BitVec 64
  deriving DecidableEq

inductive MoveWideOp
  | MovZ | MovN
  deriving DecidableEq, Repr

/-- A 16-bit chunk and the index of the 16-bit slot it goes to. -/
structure MoveWideConst where
  bits : Nat
  shift : Nat
  bits_lt : bits < 2 ^ 16
  shift_lt : shift < 4
  deriving DecidableEq

structure SImm9 where
  value : Int
  le_value : -256 ≤ value
  value_le : value ≤ 255
  deriving DecidableEq

/-- An unsigned 12-bit offset, stored already scaled by the access size. -/
structure UImm12Scaled where
  value : Nat
  value_lt : value < 2 ^ 16
  deriving DecidableEq

/-! ## Addressing modes -/

inductive AMode
  | RegReg (rn rm : Reg)
  | RegScaled (rn rm : Reg) (ty : Ty)
  | RegScaledExtended (rn rm : Reg) (ty : Ty) (extendop : ExtendOp)
  | RegExtended (rn rm : Reg) (extendop : ExtendOp)
  | Unscaled (rn : Reg) (simm9 : SImm9)
  | UnsignedOffset (rn : Reg) (uimm12 : UImm12Scaled)
  | Label
  | Const
  | RegOffset (rn : Reg) (off : Int) (ty : Ty)
  | SPOffset
  | FPOffset
  | NominalSPOffset
  | SPPostIndexed
  | SPPreIndexed
  deriving DecidableEq

def AMode.regs : AMode → List Reg
  | .RegReg rn rm | .RegScaled rn rm _ | .RegScaledExtended rn rm _ _
  | .RegExtended rn rm _ => [rn, rm]
  | .Unscaled rn _ | .UnsignedOffset rn _ | .RegOffset rn _ _ => [rn]
  | _ => []

inductive PairAMode
  | SignedOffset (reg : Reg)
  | SPPreIndexed
  | SPPostIndexed
  deriving DecidableEq

def PairAMode.regs : PairAMode → List Reg
  | .SignedOffset reg => [reg]
  | _ => []

/-! ## Instructions -/

inductive LoadOp
  | ULoad8 | SLoad8 | ULoad16 | SLoad16 | ULoad32 | SLoad32 | ULoad64
  | FpuLoad32 | FpuLoad64 | FpuLoad128
  deriving DecidableEq, Repr

/-- The type that `check` passes for each load. -/
def LoadOp.ty : LoadOp → Ty
  | .ULoad8 | .SLoad8 => .I8
  | .ULoad16 | .SLoad16 => .I16
  | .ULoad32 | .SLoad32 => .I32
  | .ULoad64 => .I64
  | .FpuLoad32 => .F32
  | .FpuLoad64 => .F64
  | .FpuLoad128 => .I8X16

/-- Integer loads compare the loaded fact with `rd`'s; FPU loads pass `None`. -/
def LoadOp.resultReg (op : LoadOp) (rd : Reg) : Option Reg :=
  match op with
  | .FpuLoad32 | .FpuLoad64 | .FpuLoad128 => none
  | _ => some rd

theorem LoadOp.resultReg_cases (op : LoadOp) (rd : Reg) :
    op.resultReg rd = none ∨ op.resultReg rd = some rd := by
  cases op <;> simp [resultReg]

inductive StoreOp
  | Store8 | Store16 | Store32 | Store64 | FpuStore32 | FpuStore64 | FpuStore128
  deriving DecidableEq, Repr

def StoreOp.ty : StoreOp → Ty
  | .Store8 => .I8 | .Store16 => .I16 | .Store32 => .I32 | .Store64 => .I64
  | .FpuStore32 => .F32 | .FpuStore64 => .F64 | .FpuStore128 => .I8X16

/-- Integer stores pass the stored register's fact; FPU stores pass `None`. -/
def StoreOp.storedReg (op : StoreOp) (rd : Reg) : Option Reg :=
  match op with
  | .FpuStore32 | .FpuStore64 | .FpuStore128 => none
  | _ => some rd

theorem StoreOp.storedReg_cases (op : StoreOp) (rd : Reg) :
    op.storedReg rd = none ∨ op.storedReg rd = some rd := by
  cases op <;> simp [storedReg]

inductive LoadPairOp
  | LoadP64 | FpuLoadP64 | FpuLoadP128
  deriving DecidableEq, Repr

inductive StorePairOp
  | StoreP64 | FpuStoreP64 | FpuStoreP128
  deriving DecidableEq, Repr

/-- `Other` stands for every instruction that `check` does not match, by the registers
it defines and uses. -/
inductive Inst
  | Args (defs : List Reg)
  | Load (op : LoadOp) (rd : Reg) (mem : AMode) (flags : MemFlags)
  | LoadPair (op : LoadPairOp) (rt rt2 : Reg) (mem : PairAMode) (flags : MemFlags)
  | VecLoadReplicate (rd rn : Reg) (size : VectorSize) (flags : MemFlags)
  | LoadAcquire (accessTy : Ty) (rt rn : Reg) (flags : MemFlags)
  | Store (op : StoreOp) (rd : Reg) (mem : AMode) (flags : MemFlags)
  | StorePair (op : StorePairOp) (rt rt2 : Reg) (mem : PairAMode) (flags : MemFlags)
  | StoreRelease (accessTy : Ty) (rt rn : Reg) (flags : MemFlags)
  | AluRRR (aluOp : ALUOp) (size : OperandSize) (rd rn rm : Reg)
  | AluRRImm12 (aluOp : ALUOp) (size : OperandSize) (rd rn : Reg) (imm12 : Imm12)
  | AluRRRShift (aluOp : ALUOp) (size : OperandSize) (rd rn rm : Reg) (shiftop : ShiftOpAndAmt)
  | AluRRRExtend (aluOp : ALUOp) (size : OperandSize) (rd rn rm : Reg) (extendop : ExtendOp)
  | AluRRImmLogic (aluOp : ALUOp) (size : OperandSize) (rd rn : Reg) (imml : ImmLogic)
  | AluRRImmShift (aluOp : ALUOp) (size : OperandSize) (rd rn : Reg) (immshift : ImmShift)
  | Extend (rd rn : Reg) (signed : Bool) (fromBits toBits : Nat)
  | MovWide (op : MoveWideOp) (rd : Reg) (imm : MoveWideConst) (size : OperandSize)
  | MovK (rd rn : Reg) (imm : MoveWideConst) (size : OperandSize)
  | Other (defs uses : List Reg)
  deriving DecidableEq

namespace Inst

/-- The registers an instruction defines, as its operand collector lists them. -/
def defs : Inst → List Reg
  | .Args defs | .Other defs _ => defs
  | .Load _ rd _ _ | .VecLoadReplicate rd _ _ _ | .LoadAcquire _ rd _ _ => [rd]
  | .LoadPair _ rt rt2 _ _ => [rt, rt2]
  | .Store .. | .StorePair .. | .StoreRelease .. => []
  | .AluRRR _ _ rd _ _ | .AluRRImm12 _ _ rd _ _ | .AluRRRShift _ _ rd _ _ _
  | .AluRRRExtend _ _ rd _ _ _ | .AluRRImmLogic _ _ rd _ _ | .AluRRImmShift _ _ rd _ _
  | .Extend rd _ _ _ _ | .MovWide _ rd _ _ | .MovK rd _ _ _ => [rd]

def uses : Inst → List Reg
  | .Args _ | .MovWide .. => []
  | .Other _ uses => uses
  | .Load _ _ mem _ => mem.regs
  | .LoadPair _ _ _ mem _ => mem.regs
  | .VecLoadReplicate _ rn _ _ | .LoadAcquire _ _ rn _ => [rn]
  | .Store _ rd mem _ => rd :: mem.regs
  | .StorePair _ rt rt2 mem _ => rt :: rt2 :: mem.regs
  | .StoreRelease _ rt rn _ => [rt, rn]
  | .AluRRR _ _ _ rn rm | .AluRRRShift _ _ _ rn rm _ | .AluRRRExtend _ _ _ rn rm _ => [rn, rm]
  | .AluRRImm12 _ _ _ rn _ | .AluRRImmLogic _ _ _ rn _ | .AluRRImmShift _ _ _ rn _
  | .Extend _ rn _ _ _ | .MovK _ rn _ _ => [rn]

def regs (inst : Inst) : List Reg := inst.defs ++ inst.uses

/-- The `rd` (or `rt`) that a single-destination instruction writes. -/
def dest : Inst → Option Reg
  | .Load _ rd _ _ | .VecLoadReplicate rd _ _ _ | .LoadAcquire _ rd _ _ => some rd
  | .AluRRR _ _ rd _ _ | .AluRRImm12 _ _ rd _ _ | .AluRRRShift _ _ rd _ _ _
  | .AluRRRExtend _ _ rd _ _ _ | .AluRRImmLogic _ _ rd _ _ | .AluRRImmShift _ _ rd _ _
  | .Extend rd _ _ _ _ | .MovWide _ rd _ _ | .MovK rd _ _ _ => some rd
  | _ => none

theorem defs_eq_of_dest {inst : Inst} {r : Reg} (h : inst.dest = some r) : inst.defs = [r] := by
  cases inst <;> simp_all [dest, defs]

theorem dest_mem_defs {inst : Inst} {r : Reg} (h : inst.dest = some r) : r ∈ inst.defs := by
  rw [defs_eq_of_dest h]
  exact List.mem_singleton_self r

end Inst

end Wasmfxtime.Pcc
