
namespace SingleWire

structure Timing where
  resetLow : Nat := 500
  presenceSample : Nat := 90
  resetSettle : Nat := 420
  writeOneLow : Nat := 1
  writeOneHigh : Nat := 60
  writeZeroLow : Nat := 60
  writeZeroHigh : Nat := 1
  /-- Counted from the falling edge of a read slot. -/
  samplePoint : Nat := 13
  readRecovery : Nat := 55
  idlePolls : Nat := 125
  idlePoll : Nat := 2
  deriving DecidableEq, Repr, Inhabited

def Timing.standard : Timing := {}

inductive Timing.Setting
  | resetLow (time : Nat)
  | presenceSample (time : Nat)
  | resetSettle (time : Nat)
  | writeOne (low high : Nat)
  | writeZero (low high : Nat)
  | samplePoint (time : Nat)
  | readRecovery (time : Nat)
  | idleWait (polls poll : Nat)
  deriving DecidableEq, Repr

def Timing.set (timing : Timing) : Timing.Setting → Timing
  | .resetLow time => { timing with resetLow := time }
  | .presenceSample time => { timing with presenceSample := time }
  | .resetSettle time => { timing with resetSettle := time }
  | .writeOne low high => { timing with writeOneLow := low, writeOneHigh := high }
  | .writeZero low high => { timing with writeZeroLow := low, writeZeroHigh := high }
  | .samplePoint time => { timing with samplePoint := time }
  | .readRecovery time => { timing with readRecovery := time }
  | .idleWait polls poll => { timing with idlePolls := polls, idlePoll := poll }

end SingleWire
