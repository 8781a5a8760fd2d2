import Aarchvm.Word

/-!
# System registers

The part of `SystemRegisters` that exception entry, exception return, the debug
predicates and address translation read or write. Identification registers keep
their reset values, since no guest access changes them.
-/
namespace Aarchvm

structure PState where
  n : Bool := false
  z : Bool := false
  c : Bool := false
  v : Bool := false
  ss : Bool := false
  il : Bool := false
  d : Bool := false
  a : Bool := false
  i : Bool := false
  f : Bool := false
  pan : Bool := false
  mode : U8 := 0x5
  deriving DecidableEq, Repr

structure SystemRegisters where
  sctlrEl1 : U64
  cpacrEl1 : U64
  ttbr0El1 : U64
  ttbr1El1 : U64
  tcrEl1 : U64
  mairEl1 : U64
  osdlrEl1 : U64
  oslarEl1 : U64
  dbgprcrEl1 : U64
  dbgbvrEl1 : Nat → U64
  dbgbcrEl1 : Nat → U64
  dbgwvrEl1 : Nat → U64
  dbgwcrEl1 : Nat → U64
  vbarEl1 : U64
  elrEl1 : U64
  spsrEl1 : U64
  spEl0 : U64
  spEl1 : U64
  spsel : U64
  parEl1 : U64
  esrEl1 : U64
  farEl1 : U64
  mdscrEl1 : U64
  pstate : PState

/-- `cond ? 1ull << k : 0`. -/
def flag (cond : Bool) (k : Nat) : U64 := if cond then (1 : U64) <<< k else 0

/-- The disjunction of `1ull << k`. -/
def bitMask (bits : List Nat) : U64 := bits.foldl (fun m k => m ||| ((1 : U64) <<< k)) 0

def kSctlrEl1Span : Nat := 23
def kMdscrEl1Kde : Nat := 13
def kMdscrEl1Mde : Nat := 15
def kMdscrEl1Ss : Nat := 0

/-- NZCV, PAN, SS, IL, DAIF and M[4:0]. -/
def kSpsrEl1SupportedMask : U64 :=
  bitMask [31, 30, 29, 28, 22, 21, 20, 9, 8, 7, 6, 4, 3, 2, 1, 0]

def sanitizeSpsrEl1 (value : U64) : U64 := value &&& kSpsrEl1SupportedMask

def kSctlrEl1BaseWritableMask : U64 := bitMask [26, 23, 18, 16, 15, 14, 19, 12, 9, 4, 3, 2, 1, 0]

/-- The RES1 bits that the identification registers leave: nTLSMD, LSMAOE, EIS, TSCXT, EOS,
SED and ITD. -/
def kSctlrEl1Res1Mask : U64 := bitMask [29, 28, 22, 20, 11, 8, 7]

def sanitizeSctlrEl1 (value : U64) : U64 :=
  (value ||| kSctlrEl1Res1Mask) &&& (kSctlrEl1BaseWritableMask ||| kSctlrEl1Res1Mask)

def kTcrEl1BaseArchitecturalMask : U64 := 0xFFFFFFFF ||| bitMask [34, 33, 32, 38, 37]
def kTcrEl1ReservedMask : U64 := bitMask [63, 62, 35, 6]
def kTcrEl1DsMask : U64 := bitMask [59]

def sanitizeTcrEl1 (value : U64) : U64 :=
  value &&& ~~~kTcrEl1ReservedMask &&& ~~~kTcrEl1DsMask &&& kTcrEl1BaseArchitecturalMask

/-- With 8-bit ASIDs and without CnP, the top byte and bit 0 are RES0. -/
def sanitizeTtbrEl1 (value : U64) : U64 := value &&& ~~~((0xFF : U64) <<< 56) &&& ~~~1

/-- `debug_exceptions_enabled_from_el`. -/
def debugExceptionsEnabledFromEl (fromEl : U8) (dMasked : Bool) (mdscrEl1 : U64) : Bool :=
  if fromEl = 0 then true
  else if fromEl = 1 then mdscrEl1.getLsbD kMdscrEl1Kde && !dMasked
  else false

namespace PState

def nzcv (p : PState) : U64 := flag p.n 31 ||| flag p.z 30 ||| flag p.c 29 ||| flag p.v 28

def daif (p : PState) : U64 := flag p.d 9 ||| flag p.a 8 ||| flag p.i 7 ||| flag p.f 6

def setNzcv (p : PState) (value : U64) : PState :=
  { p with
    n := value.getLsbD 31, z := value.getLsbD 30, c := value.getLsbD 29, v := value.getLsbD 28 }

def setDaif (p : PState) (value : U64) : PState :=
  { p with
    d := value.getLsbD 9, a := value.getLsbD 8, i := value.getLsbD 7, f := value.getLsbD 6 }

/-- `pstate_bits`. -/
def bits (p : PState) : U64 :=
  p.nzcv ||| flag p.ss 21 ||| flag p.il 20 ||| p.daif ||| flag p.pan 22 |||
    (p.mode.setWidth 64 &&& 0xF)

def currentEl (p : PState) : U8 := (p.mode >>> 2) &&& 0x3

end PState

namespace SystemRegisters

/-- The values `SystemRegisters::reset` leaves. -/
def reset : SystemRegisters where
  sctlrEl1 := sanitizeSctlrEl1 0x30D00800
  cpacrEl1 := 0
  ttbr0El1 := 0
  ttbr1El1 := 0
  tcrEl1 := 0
  mairEl1 := 0
  osdlrEl1 := 0
  oslarEl1 := 1
  dbgprcrEl1 := 0
  dbgbvrEl1 := fun _ => 0
  dbgbcrEl1 := fun _ => 0
  dbgwvrEl1 := fun _ => 0
  dbgwcrEl1 := fun _ => 0
  vbarEl1 := 0
  elrEl1 := 0
  spsrEl1 := 0
  spEl0 := 0
  spEl1 := 0
  spsel := 1
  parEl1 := 0
  esrEl1 := 0
  farEl1 := 0
  mdscrEl1 := 0
  pstate := {}

variable (r : SystemRegisters)

def currentEl : U8 := r.pstate.currentEl
def inEl0 : Bool := r.currentEl == 0
def irqMasked : Bool := r.pstate.i
def mmuEnabled : Bool := r.sctlrEl1.getLsbD 0
def currentUsesSpEl0 : Bool := r.pstate.mode == 0x0 || r.pstate.mode == 0x4
def useSpElx : Bool := !r.currentUsesSpEl0
def osLockActive : Bool := r.oslarEl1.getLsbD 0
def doubleLockActive : Bool := r.osdlrEl1.getLsbD 0 && !r.dbgprcrEl1.getLsbD 0
def monitorDebugEnabled : Bool := r.mdscrEl1.getLsbD kMdscrEl1Mde
def softwareStepEnabled : Bool := r.mdscrEl1.getLsbD kMdscrEl1Ss

def debugExceptionsEnabledCurrent : Bool :=
  debugExceptionsEnabledFromEl r.currentEl r.pstate.d r.mdscrEl1

def breakpointWatchpointEnabledCurrent : Bool :=
  r.monitorDebugEnabled && r.debugExceptionsEnabledCurrent && !r.osLockActive &&
    !r.doubleLockActive

def softwareStepActivePending : Bool :=
  r.softwareStepEnabled && r.debugExceptionsEnabledCurrent && !r.osLockActive &&
    !r.doubleLockActive && !r.pstate.ss

def softwareStepActiveNotPending : Bool :=
  r.softwareStepEnabled && r.debugExceptionsEnabledCurrent && !r.osLockActive &&
    !r.doubleLockActive && r.pstate.ss

def setSoftwareStepState (value : Bool) : SystemRegisters :=
  { r with pstate.ss := value }

/-- `set_pstate_bits`. -/
def setPstateBits (value : U64) : SystemRegisters :=
  let p := { (r.pstate.setNzcv value).setDaif value with
    ss := value.getLsbD 21, il := value.getLsbD 20, pan := value.getLsbD 22,
    mode := value.setWidth 8 &&& 0xF }
  { r with
    pstate := p
    spsel := if p.currentEl = 1 then p.mode.setWidth 64 &&& 0x1 else 0 }

/-- The PSTATE part of both exception entries: EL1h with DAIF masked. -/
def enterEl1h : SystemRegisters :=
  { r with
    spsel := 1
    pstate := { r.pstate with
      mode := 0x5, ss := false, il := false, d := true, a := true, i := true, f := true,
      pan := if r.sctlrEl1.getLsbD kSctlrEl1Span then r.pstate.pan else true } }

def exceptionEnterIrq (returnPc savedPstateBits : U64) : SystemRegisters :=
  enterEl1h { r with
    elrEl1 := returnPc, spsrEl1 := sanitizeSpsrEl1 savedPstateBits, esrEl1 := 0 }

/-- The syndrome `exception_enter_sync` stores. -/
def syncSyndrome (ec iss : U32) : U64 :=
  ((ec &&& 0x3F).setWidth 64 <<< 26) ||| ((1 : U64) <<< 25) ||| (iss &&& 0x1FFFFFF).setWidth 64

def exceptionEnterSync (returnPc savedPstateBits : U64) (ec iss : U32) (farValid : Bool)
    (far : U64) : SystemRegisters :=
  enterEl1h { r with
    elrEl1 := returnPc, spsrEl1 := sanitizeSpsrEl1 savedPstateBits,
    esrEl1 := syncSyndrome ec iss, farEl1 := if farValid then far else 0 }

/-- `illegal_exception_return`: an AArch32 state, or a mode other than EL0t, EL1t, EL1h. -/
def illegalExceptionReturn : Bool :=
  r.spsrEl1.getLsbD 4 ||
    !(r.spsrEl1 &&& 0xF == 0x0 || r.spsrEl1 &&& 0xF == 0x4 || r.spsrEl1 &&& 0xF == 0x5)

/-- `exception_return`: the new PC and the restored state. -/
def exceptionReturn (illegalPsrState : Bool) : U64 × SystemRegisters :=
  let enabledAtSource := debugExceptionsEnabledFromEl r.currentEl r.pstate.d r.mdscrEl1
  let destEl : U8 := if illegalPsrState then r.currentEl else (r.spsrEl1 >>> 2).setWidth 8 &&& 0x3
  let enabledAtDest := debugExceptionsEnabledFromEl destEl (r.spsrEl1.getLsbD 9) r.mdscrEl1
  let restoreSoftwareStep :=
    r.softwareStepEnabled && !enabledAtSource && enabledAtDest && r.spsrEl1.getLsbD 21
  if illegalPsrState then
    (r.elrEl1, { r with
      pstate := { (r.pstate.setNzcv r.spsrEl1).setDaif r.spsrEl1 with
        pan := r.spsrEl1.getLsbD 22, ss := restoreSoftwareStep, il := true } })
  else
    (r.elrEl1, (r.setPstateBits r.spsrEl1).setSoftwareStepState restoreSoftwareStep)

end SystemRegisters
end Aarchvm
