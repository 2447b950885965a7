import Mathlib.Data.Int.Bitwise
import RagService.Store.Model

/-!
# Snowflake ids

The 64 bit ids of `utils/snowflake.py`: the bit layout, the generator of one process
with its clock readings, and the parser.
-/

namespace RagService

/-!
# The bit layout

An id has the time, the two identifiers of the node and the sequence number in fields of their
own.
-/

namespace SnowflakeConfig

def workerIdBits : Nat := 5
def datacenterIdBits : Nat := 5
def sequenceBits : Nat := 12

def maxWorkerId : Nat := (1 <<< workerIdBits) - 1
def maxDatacenterId : Nat := (1 <<< datacenterIdBits) - 1
def sequenceMask : Nat := (1 <<< sequenceBits) - 1

def workerIdShift : Nat := sequenceBits
def datacenterIdShift : Nat := sequenceBits + workerIdBits
def timestampLeftShift : Nat := sequenceBits + workerIdBits + datacenterIdBits

def epoch : Int := 1262275200000
def clockBackwardToleranceMs : Int := 10000

end SnowflakeConfig

open SnowflakeConfig

/-- A pair of identifiers that `Snowflake.init` accepts. -/
structure Node where
  datacenterId : Nat
  workerId : Nat
  datacenterId_le : datacenterId ≤ maxDatacenterId
  workerId_le : workerId ≤ maxWorkerId
  deriving DecidableEq

def Node.compose (node : Node) (timestamp : Int) (sequence : Nat) : Int :=
  Int.lor
    (Int.lor
      (Int.lor ((timestamp - epoch) <<< timestampLeftShift)
        ((node.datacenterId : Int) <<< datacenterIdShift))
      ((node.workerId : Int) <<< workerIdShift))
    sequence

/-!
# Generating

A call reads the clock, counts up within one millisecond, and waits for the next one when the
numbers run out.  It raises when the clock has gone back too far.
-/

structure Snowflake where
  node : Option Node
  sequence : Nat
  lastTimestamp : Int

namespace Snowflake

def started (node : Node) : Snowflake :=
  ⟨some node, 0, -1⟩

/-- Read the clock until it is past a time; `none` while it is not. -/
def tillNextMs (lastTimestamp : Int) : List Int -> Option (Int × List Int)
  | [] => none
  | ts :: clock => if ts ≤ lastTimestamp then tillNextMs lastTimestamp clock else some (ts, clock)

def nextSequence (s : Snowflake) (timestamp : Int) (clock : List Int) :
    Option (Snowflake × List Int) :=
  if timestamp = s.lastTimestamp then
    let sequence := (s.sequence + 1) &&& sequenceMask
    if sequence = 0 then
      (tillNextMs s.lastTimestamp clock).map fun (timestamp, clock) =>
        ({ s with sequence := sequence, lastTimestamp := timestamp }, clock)
    else
      some ({ s with sequence := sequence, lastTimestamp := timestamp }, clock)
  else
    some ({ s with sequence := 0, lastTimestamp := timestamp }, clock)

def issue (s : Snowflake) (node : Node) (timestamp : Int) (clock : List Int) :
    Option (Except Exception Int × Snowflake × List Int) :=
  (s.nextSequence timestamp clock).map fun (s', clock) =>
    (.ok (node.compose s'.lastTimestamp s'.sequence), s', clock)

/--
One call of `generate`, with the readings of the clock during the call; the result is the
id or the exception, the generator after the call, and the readings that are left.
-/
def generate (s : Snowflake) (clock : List Int) :
    Option (Except Exception Int × Snowflake × List Int) :=
  match s.node, clock with
  | none, clock => some (.error (.server "雪花 ID 生成失败，雪花算法未初始化".toList), s, clock)
  | some _, [] => none
  | some node, timestamp :: clock =>
      if timestamp < s.lastTimestamp then
        let backMs := s.lastTimestamp - timestamp
        if backMs ≤ clockBackwardToleranceMs then
          -- a small step back is waited out
          (tillNextMs s.lastTimestamp clock).bind fun (timestamp, clock) =>
            s.issue node timestamp clock
        else
          some (.error (.server ("雪花 ID 生成失败，时钟回拨超过 ".toList ++
            Text.decimal backMs.toNat ++ " ms，请立即联系系统管理员".toList)), s, clock)
      else
        s.issue node timestamp clock

end Snowflake

/-!
# Parsing
-/

structure SnowflakeInfo where
  timestamp : Int
  datetime : Text
  datacenterId : Int
  workerId : Int
  sequence : Int

/-- `Snowflake.parse`, with the formatting of a time in the configured zone. -/
def Snowflake.parse (timeText : Int -> Text) (snowflakeId : Int) : SnowflakeInfo :=
  let timestamp := (snowflakeId >>> timestampLeftShift) + epoch
  { timestamp := timestamp
    datetime := timeText timestamp
    datacenterId := Int.land (snowflakeId >>> datacenterIdShift) maxDatacenterId
    workerId := Int.land (snowflakeId >>> workerIdShift) maxWorkerId
    sequence := Int.land snowflakeId sequenceMask }

end RagService
