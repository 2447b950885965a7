import Mathlib.Data.List.Nodup
import Mathlib.Tactic.Ring
import RagService.Snowflake.Generator

/-!
# Snowflake ids are unique

The ids of one process grow with its last time and sequence number, and the ids of two
processes differ in the bits of their nodes.
-/

namespace RagService

open SnowflakeConfig

/-!
# The bit fields

The four fields of an id do not overlap, so `parse` recovers what an id was built from.
-/

theorem shiftLeft_or_eq {a b i : Nat} (h : b < 2 ^ i) : a <<< i ||| b = a * 2 ^ i + b := by
  rw [← Nat.shiftLeft_add_eq_or_of_lt h, Nat.shiftLeft_eq]

theorem Node.compose_eq (node : Node) (k : Nat) {sequence : Nat}
    (hsequence : sequence ≤ sequenceMask) :
    node.compose (epoch + k) sequence =
      (((k * 32 + node.datacenterId) * 32 + node.workerId) * 4096 + sequence : Nat) := by
  have hdatacenter : node.datacenterId < 2 ^ 5 := Nat.lt_succ_of_le node.datacenterId_le
  have hworker : node.workerId < 2 ^ 5 := Nat.lt_succ_of_le node.workerId_le
  have hlast : sequence < 2 ^ 12 := Nat.lt_succ_of_le hsequence
  have hnat : node.compose (epoch + k) sequence =
      ((k <<< 22 ||| node.datacenterId <<< 17 ||| node.workerId <<< 12 ||| sequence : Nat) : Int) := by
    unfold Node.compose
    rw [add_sub_cancel_left]
    rfl
  have hfirst : k <<< 22 ||| node.datacenterId <<< 17 = (k * 32 + node.datacenterId) <<< 17 := by
    rw [show k <<< 22 = (k <<< 5) <<< 17 by rw [← Nat.shiftLeft_add], ← Nat.shiftLeft_or_distrib,
      shiftLeft_or_eq hdatacenter]
    rfl
  have hsecond : (k * 32 + node.datacenterId) <<< 17 ||| node.workerId <<< 12 =
      ((k * 32 + node.datacenterId) * 32 + node.workerId) <<< 12 := by
    rw [show (k * 32 + node.datacenterId) <<< 17 = ((k * 32 + node.datacenterId) <<< 5) <<< 12 by
        rw [← Nat.shiftLeft_add],
      ← Nat.shiftLeft_or_distrib, shiftLeft_or_eq hworker]
    rfl
  rw [hnat, hfirst, hsecond, shiftLeft_or_eq hlast]
  rfl

theorem Snowflake.parse_compose (timeText : Int -> Text) (node : Node) {timestamp : Int}
    {sequence : Nat} (htimestamp : epoch ≤ timestamp) (hsequence : sequence ≤ sequenceMask) :
    Snowflake.parse timeText (node.compose timestamp sequence) =
      { timestamp := timestamp
        datetime := timeText timestamp
        datacenterId := node.datacenterId
        workerId := node.workerId
        sequence := sequence } := by
  rcases Int.le.dest htimestamp with ⟨k, rfl⟩
  have hdatacenter : node.datacenterId ≤ 31 := node.datacenterId_le
  have hworker : node.workerId ≤ 31 := node.workerId_le
  have hlast : sequence ≤ 4095 := hsequence
  rw [node.compose_eq k hsequence]
  -- the fields of a natural number, by division and remainder
  have hshift : forall n i : Nat, ((n : Int) >>> i) = ((n / 2 ^ i : Nat) : Int) := by
    intro n i
    rw [← Nat.shiftRight_eq_div_pow]
    rfl
  have hmask : forall n i : Nat, Int.land (n : Int) ((1 <<< i) - 1 : Nat) = ((n % 2 ^ i : Nat) : Int) := by
    intro n i
    rw [← Nat.and_two_pow_sub_one_eq_mod, Nat.one_shiftLeft]
    rfl
  simp only [Snowflake.parse, maxDatacenterId, maxWorkerId, sequenceMask, hshift, hmask,
    timestampLeftShift, datacenterIdShift, workerIdShift, sequenceBits, workerIdBits,
    datacenterIdBits, SnowflakeInfo.mk.injEq]
  have htime : ((((k * 32 + node.datacenterId) * 32 + node.workerId) * 4096 + sequence) /
      2 ^ (12 + 5 + 5) : Nat) = k := by omega
  rw [htime]
  refine ⟨Int.add_comm _ _, by rw [Int.add_comm], ?_, ?_, ?_⟩
  · norm_cast
    omega
  · norm_cast
    omega
  · norm_cast
    omega

/-!
# One call

A call that returns builds its id from a time and sequence number after the last ones; a call
that raises leaves the generator as it was.
-/

namespace Snowflake

variable {s s' : Snowflake} {clock rest : List Int} {timestamp id : Int}

def Past (s : Snowflake) (timestamp : Int) (sequence : Nat) : Prop :=
  timestamp < s.lastTimestamp ∨ (timestamp = s.lastTimestamp ∧ sequence ≤ s.sequence)

def Before (s s' : Snowflake) : Prop :=
  s.lastTimestamp < s'.lastTimestamp ∨
    (s.lastTimestamp = s'.lastTimestamp ∧ s.sequence < s'.sequence)

theorem tillNextMs_some {lastTimestamp : Int}
    (h : tillNextMs lastTimestamp clock = some (timestamp, rest)) :
    lastTimestamp < timestamp ∧ timestamp :: rest <:+ clock := by
  induction clock with
  | nil => cases h
  | cons ts clock ih =>
      unfold tillNextMs at h
      split at h
      · rcases ih h with ⟨hlt, hsuffix⟩
        exact ⟨hlt, hsuffix.trans (List.suffix_cons ts clock)⟩
      · rename_i hle
        cases h
        exact ⟨Int.lt_of_not_ge hle, List.suffix_refl _⟩

theorem nextSequence_some (h : s.nextSequence timestamp clock = some (s', rest))
    (hsequence : s.sequence ≤ sequenceMask) (hle : s.lastTimestamp ≤ timestamp) :
    s'.node = s.node ∧ s'.sequence ≤ sequenceMask ∧ s.Before s' ∧
      (s'.lastTimestamp = timestamp ∨ s'.lastTimestamp ∈ clock) := by
  unfold nextSequence at h
  split at h
  · rename_i hsame
    dsimp only at h
    split at h
    · rename_i hzero
      rw [Option.map_eq_some_iff] at h
      rcases h with ⟨⟨ts, clock'⟩, hnext, heq⟩
      cases heq
      rcases tillNextMs_some hnext with ⟨hlt, hsuffix⟩
      exact ⟨rfl, by simp only [hzero, Nat.zero_le], .inl hlt,
        .inr (hsuffix.mem List.mem_cons_self)⟩
    · rename_i hzero
      cases h
      have hmod : (s.sequence + 1) &&& sequenceMask = (s.sequence + 1) % 2 ^ 12 :=
        Nat.and_two_pow_sub_one_eq_mod _ 12
      have hbound : s.sequence ≤ 4095 := hsequence
      -- the number has not wrapped around
      have hnext : (s.sequence + 1) &&& sequenceMask = s.sequence + 1 := by
        rw [hmod] at hzero ⊢
        omega
      refine ⟨rfl, Nat.and_le_right, .inr ⟨hsame.symm, ?_⟩, .inl rfl⟩
      simp only [hnext]
      exact Nat.lt_succ_self _
  · rename_i hne
    cases h
    exact ⟨rfl, Nat.zero_le _, .inl (lt_of_le_of_ne hle (Ne.symm hne)), .inl rfl⟩

theorem issue_ok {node : Node} (h : s.issue node timestamp clock = some (.ok id, s', rest))
    (hnode : s.node = some node) (hsequence : s.sequence ≤ sequenceMask)
    (hle : s.lastTimestamp ≤ timestamp) (hepoch : epoch ≤ timestamp)
    (hclock : forall r, r ∈ clock -> epoch ≤ r) :
    s'.node = some node ∧ id = node.compose s'.lastTimestamp s'.sequence ∧
      epoch ≤ s'.lastTimestamp ∧ s'.sequence ≤ sequenceMask ∧ s.Before s' := by
  unfold issue at h
  rw [Option.map_eq_some_iff] at h
  rcases h with ⟨⟨s₁, left⟩, hnext, heq⟩
  cases heq
  rcases nextSequence_some hnext hsequence hle with ⟨hkept, hmask, hbefore, hread⟩
  refine ⟨hkept.trans hnode, rfl, ?_, hmask, hbefore⟩
  rcases hread with hread | hread
  · rw [hread]
    exact hepoch
  · exact hclock _ hread

/-- A call that returns builds its id from a time and sequence number after the last ones. -/
theorem generate_ok {node : Node} (h : s.generate clock = some (.ok id, s', rest))
    (hnode : s.node = some node) (hsequence : s.sequence ≤ sequenceMask)
    (hclock : forall r, r ∈ clock -> epoch ≤ r) :
    s'.node = some node ∧ id = node.compose s'.lastTimestamp s'.sequence ∧
      epoch ≤ s'.lastTimestamp ∧ s'.sequence ≤ sequenceMask ∧ s.Before s' := by
  unfold generate at h
  rw [hnode] at h
  cases clock with
  | nil => cases h
  | cons ts clock =>
      have hrest : forall r, r ∈ clock -> epoch ≤ r :=
        fun r hr => hclock r (List.mem_cons_of_mem ts hr)
      dsimp only at h
      split at h
      · split at h
        · rw [Option.bind_eq_some_iff] at h
          rcases h with ⟨⟨later, left⟩, hwait, h⟩
          rcases tillNextMs_some hwait with ⟨hlt, hsuffix⟩
          exact issue_ok h hnode hsequence (Int.le_of_lt hlt)
            (hrest later (hsuffix.mem List.mem_cons_self))
            fun r hr => hrest r (hsuffix.mem (List.mem_cons_of_mem later hr))
        · cases h
      · rename_i hback
        exact issue_ok h hnode hsequence (Int.le_of_not_gt hback)
          (hclock ts List.mem_cons_self) hrest

theorem issue_ne_error {node : Node} {e : Exception} :
    s.issue node timestamp clock ≠ some (.error e, s', rest) := by
  intro h
  unfold issue at h
  rw [Option.map_eq_some_iff] at h
  rcases h with ⟨x, hx, heq⟩
  cases heq

theorem generate_error {e : Exception} (h : s.generate clock = some (.error e, s', rest)) :
    s' = s := by
  unfold generate at h
  split at h
  · cases h
    rfl
  · cases h
  · dsimp only at h
    split at h
    · split at h
      · rw [Option.bind_eq_some_iff] at h
        rcases h with ⟨x, hx, h⟩
        exact absurd h issue_ne_error
      · cases h
        rfl
    · exact absurd h issue_ne_error

end Snowflake

/-!
# Any number of processes

Ids of different nodes differ, and a new id is above the ids that the process has returned
before.
-/

section

variable {Process : Type} [DecidableEq Process] {nodes : Process -> Node}

inductive Generated (nodes : Process -> Node) :
    List (Process × Int) -> (Process -> Snowflake) -> Prop where
  | started : Generated nodes [] (fun p => Snowflake.started (nodes p))
  | returned {ids : List (Process × Int)} {fleet : Process -> Snowflake} {p : Process}
      {clock rest : List Int} {id : Int} {s' : Snowflake} :
      Generated nodes ids fleet -> (forall r, r ∈ clock -> epoch ≤ r) ->
      (fleet p).generate clock = some (.ok id, s', rest) ->
      Generated nodes (ids ++ [(p, id)]) (Function.update fleet p s')
  | raised {ids : List (Process × Int)} {fleet : Process -> Snowflake} {p : Process}
      {clock rest : List Int} {e : Exception} {s' : Snowflake} :
      Generated nodes ids fleet -> (forall r, r ∈ clock -> epoch ≤ r) ->
      (fleet p).generate clock = some (.error e, s', rest) ->
      Generated nodes ids (Function.update fleet p s')

def idsOf (ids : List (Process × Int)) (p : Process) : List Int :=
  (ids.filter fun x => x.1 = p).map Prod.snd

def BuiltBy (node : Node) (s : Snowflake) (id : Int) : Prop :=
  exists timestamp sequence, id = node.compose timestamp sequence ∧ epoch ≤ timestamp ∧
    sequence ≤ sequenceMask ∧ s.Past timestamp sequence

structure IdsKept (nodes : Process -> Node) (ids : List (Process × Int))
    (fleet : Process -> Snowflake) : Prop where
  node : forall p, (fleet p).node = some (nodes p)
  sequence : forall p, (fleet p).sequence ≤ sequenceMask
  built : forall p id, (p, id) ∈ ids -> BuiltBy (nodes p) (fleet p) id
  increasing : forall p, (idsOf ids p).Pairwise (· < ·)
  distinct : (ids.map Prod.snd).Nodup

theorem mem_idsOf {ids : List (Process × Int)} {p : Process} {id : Int} :
    id ∈ idsOf ids p ↔ (p, id) ∈ ids := by
  simp [idsOf]

theorem Node.compose_lt_compose (node : Node) {ts ts' : Int} {sequence sequence' : Nat}
    (hts : epoch ≤ ts) (hts' : epoch ≤ ts') (hsequence : sequence ≤ sequenceMask)
    (hsequence' : sequence' ≤ sequenceMask)
    (hlt : ts < ts' ∨ (ts = ts' ∧ sequence < sequence')) :
    node.compose ts sequence < node.compose ts' sequence' := by
  rcases Int.le.dest hts with ⟨k, rfl⟩
  rcases Int.le.dest hts' with ⟨k', rfl⟩
  have hdatacenter : node.datacenterId ≤ 31 := node.datacenterId_le
  have hworker : node.workerId ≤ 31 := node.workerId_le
  have hlast : sequence ≤ 4095 := hsequence
  have hk : k < k' ∨ (k = k' ∧ sequence < sequence') := by
    rcases hlt with hlt | ⟨hsame, hlt⟩
    · exact .inl (Int.ofNat_lt.mp (Int.lt_of_add_lt_add_left hlt))
    · exact .inr ⟨Int.ofNat_inj.mp (Int.add_left_cancel hsame), hlt⟩
  rw [node.compose_eq k hsequence, node.compose_eq k' hsequence', Int.ofNat_lt]
  omega

theorem Node.eq_of_compose {node node' : Node} {ts ts' : Int} {sequence sequence' : Nat}
    (hts : epoch ≤ ts) (hts' : epoch ≤ ts') (hsequence : sequence ≤ sequenceMask)
    (hsequence' : sequence' ≤ sequenceMask)
    (h : node.compose ts sequence = node'.compose ts' sequence') : node = node' := by
  have hparse := congrArg (Snowflake.parse fun _ => []) h
  rw [Snowflake.parse_compose _ node hts hsequence,
    Snowflake.parse_compose _ node' hts' hsequence'] at hparse
  simp only [SnowflakeInfo.mk.injEq, Int.ofNat_inj] at hparse
  cases node
  cases node'
  simp only [Node.mk.injEq]
  exact ⟨hparse.2.2.1, hparse.2.2.2.1⟩

theorem BuiltBy.before {node : Node} {s s' : Snowflake} {id : Int} (h : BuiltBy node s id)
    (hbefore : s.Before s') : BuiltBy node s' id := by
  rcases h with ⟨ts, sequence, hid, hepoch, hmask, hpast⟩
  refine ⟨ts, sequence, hid, hepoch, hmask, ?_⟩
  rcases hpast with hlt | ⟨hsame, hle⟩ <;> rcases hbefore with hlt' | ⟨hsame', hlt'⟩
  · exact .inl (Int.lt_trans hlt hlt')
  · exact .inl (hsame' ▸ hlt)
  · exact .inl (hsame ▸ hlt')
  · exact .inr ⟨hsame.trans hsame', Nat.le_of_lt (Nat.lt_of_le_of_lt hle hlt')⟩

theorem BuiltBy.lt {node : Node} {s s' : Snowflake} {id : Int} (h : BuiltBy node s id)
    (hbefore : s.Before s') (hepoch : epoch ≤ s'.lastTimestamp)
    (hmask : s'.sequence ≤ sequenceMask) :
    id < node.compose s'.lastTimestamp s'.sequence := by
  rcases h with ⟨ts, sequence, rfl, hts, hsequence, hpast⟩
  refine node.compose_lt_compose hts hepoch hsequence hmask ?_
  rcases hpast with hlt | ⟨rfl, hle⟩ <;> rcases hbefore with hlt' | ⟨hsame', hlt'⟩
  · exact .inl (Int.lt_trans hlt hlt')
  · exact .inl (hsame' ▸ hlt)
  · exact .inl hlt'
  · exact .inr ⟨hsame', Nat.lt_of_le_of_lt hle hlt'⟩

theorem IdsKept.returned {ids : List (Process × Int)} {fleet : Process -> Snowflake} {p : Process}
    {clock rest : List Int} {id : Int} {s' : Snowflake} (hnodes : Function.Injective nodes)
    (h : IdsKept nodes ids fleet) (hclock : forall r, r ∈ clock -> epoch ≤ r)
    (hcall : (fleet p).generate clock = some (.ok id, s', rest)) :
    IdsKept nodes (ids ++ [(p, id)]) (Function.update fleet p s') := by
  rcases Snowflake.generate_ok hcall (h.node p) (h.sequence p) hclock with
    ⟨hnode, rfl, hepoch, hmask, hbefore⟩
  have hnew : BuiltBy (nodes p) s' ((nodes p).compose s'.lastTimestamp s'.sequence) :=
    ⟨_, _, rfl, hepoch, hmask, .inr ⟨rfl, Nat.le_refl _⟩⟩
  have hids : forall q, idsOf (ids ++ [(p, (nodes p).compose s'.lastTimestamp s'.sequence)]) q =
      idsOf ids q ++ if p = q then [(nodes p).compose s'.lastTimestamp s'.sequence] else [] := by
    intro q
    by_cases hq : p = q <;> simp [idsOf, List.filter_append, hq]
  constructor
  · intro q
    by_cases hq : q = p
    · rw [hq, Function.update_self, hnode]
    · rw [Function.update_of_ne hq]
      exact h.node q
  · intro q
    by_cases hq : q = p
    · rw [hq, Function.update_self]
      exact hmask
    · rw [Function.update_of_ne hq]
      exact h.sequence q
  · intro q id hmem
    by_cases hq : q = p
    · subst q
      rw [Function.update_self]
      rcases List.mem_append.mp hmem with hold | hlast
      · exact (h.built p id hold).before hbefore
      · rw [List.mem_singleton, Prod.mk.injEq] at hlast
        rw [hlast.2]
        exact hnew
    · rw [Function.update_of_ne hq]
      rcases List.mem_append.mp hmem with hold | hlast
      · exact h.built q id hold
      · rw [List.mem_singleton, Prod.mk.injEq] at hlast
        exact absurd hlast.1 hq
  · intro q
    rw [hids q]
    split
    · rename_i hq
      subst q
      refine List.pairwise_append.mpr ⟨h.increasing p, List.pairwise_singleton _ _, ?_⟩
      intro old hold new hnew
      rw [List.mem_singleton] at hnew
      rw [hnew]
      exact (h.built p old (mem_idsOf.mp hold)).lt hbefore hepoch hmask
    · rw [List.append_nil]
      exact h.increasing q
  · rw [List.map_append, List.nodup_append']
    refine ⟨h.distinct, List.nodup_singleton _, ?_⟩
    intro old hold hlast
    simp only [List.map_cons, List.map_nil, List.mem_singleton] at hlast
    rcases List.mem_map.mp hold with ⟨⟨q, id⟩, hmem, rfl⟩
    have hbuilt := h.built q id hmem
    by_cases hq : q = p
    · subst q
      exact Int.ne_of_lt (hbuilt.lt hbefore hepoch hmask) hlast
    · rcases hbuilt with ⟨ts, sequence, hid, hts, hsequence, -⟩
      rw [hid] at hlast
      exact hq (hnodes (Node.eq_of_compose hts hepoch hsequence hmask hlast))

theorem generated_kept {ids : List (Process × Int)} {fleet : Process -> Snowflake}
    (hnodes : Function.Injective nodes) (hrun : Generated nodes ids fleet) :
    IdsKept nodes ids fleet := by
  induction hrun with
  | started =>
      constructor
      · intro p
        rfl
      · intro p
        exact Nat.zero_le _
      · intro p id hmem
        cases hmem
      · intro p
        exact List.Pairwise.nil
      · exact List.nodup_nil
  | returned _ hclock hcall ih => exact ih.returned hnodes hclock hcall
  | raised _ hclock hcall ih =>
      rw [Snowflake.generate_error hcall, Function.update_eq_self]
      exact ih

theorem snowflake_ids_unique {ids : List (Process × Int)} {fleet : Process -> Snowflake}
    (hnodes : Function.Injective nodes) (hrun : Generated nodes ids fleet)
    (timeText : Int -> Text) :
    (ids.map Prod.snd).Nodup ∧
      (forall p, (idsOf ids p).Pairwise (· < ·)) ∧
      forall p clock rest s', (forall r, r ∈ clock -> epoch ≤ r) ->
        (forall e, (fleet p).generate clock = some (.error e, s', rest) ->
          s'.lastTimestamp = (fleet p).lastTimestamp ∧ s'.sequence = (fleet p).sequence) ∧
        forall id, (fleet p).generate clock = some (.ok id, s', rest) ->
          Snowflake.parse timeText id =
            { timestamp := s'.lastTimestamp
              datetime := timeText s'.lastTimestamp
              datacenterId := (nodes p).datacenterId
              workerId := (nodes p).workerId
              sequence := s'.sequence } := by
  have h := generated_kept hnodes hrun
  refine ⟨h.distinct, h.increasing, fun p clock rest s' hclock => ⟨fun e hcall => ?_, ?_⟩⟩
  · rw [Snowflake.generate_error hcall]
    exact ⟨rfl, rfl⟩
  · intro id hcall
    rcases Snowflake.generate_ok hcall (h.node p) (h.sequence p) hclock with
      ⟨-, rfl, hepoch, hmask, -⟩
    exact Snowflake.parse_compose timeText (nodes p) hepoch hmask

end

/-!
# A sample run

Two processes of one datacenter, with three calls in the first millisecond of the epoch.
-/

namespace Sample

def nodes (p : Bool) : Node where
  datacenterId := 1
  workerId := if p then 1 else 0
  datacenterId_le := by decide
  workerId_le := by
    cases p <;> decide

theorem nodes_injective : Function.Injective nodes := by
  intro p q h
  have hworker := congrArg Node.workerId h
  cases p <;> cases q <;> first | rfl | cases hworker

def ids : List (Bool × Int) :=
  [(false, 4325376), (true, 4329472), (false, 4325377)]

theorem ids_generated : exists fleet, Generated nodes ids fleet := by
  have hclock : forall r, r ∈ [epoch + 1] -> epoch ≤ r := by decide
  have hfirst : (Snowflake.started (nodes false)).generate [epoch + 1] =
      some (.ok 4325376, ⟨some (nodes false), 0, epoch + 1⟩, []) := rfl
  have hother : (Snowflake.started (nodes true)).generate [epoch + 1] =
      some (.ok 4329472, ⟨some (nodes true), 0, epoch + 1⟩, []) := rfl
  have hagain : (⟨some (nodes false), 0, epoch + 1⟩ : Snowflake).generate [epoch + 1] =
      some (.ok 4325377, ⟨some (nodes false), 1, epoch + 1⟩, []) := rfl
  have hrun : Generated nodes [(false, 4325376)] _ :=
    Generated.returned (p := false) .started hclock hfirst
  have hrun' : Generated nodes [(false, 4325376), (true, 4329472)] _ :=
    Generated.returned (p := true) hrun hclock hother
  exact ⟨_, Generated.returned (p := false) hrun' hclock hagain⟩

end Sample

theorem snowflake_ids_unique_sample : exists fleet, Generated Sample.nodes Sample.ids fleet ∧
    (Sample.ids.map Prod.snd).Nodup ∧
    (forall p, (idsOf Sample.ids p).Pairwise (· < ·)) := by
  rcases Sample.ids_generated with ⟨fleet, hrun⟩
  have hlaw := snowflake_ids_unique Sample.nodes_injective hrun fun _ => []
  exact ⟨fleet, hrun, hlaw.1, hlaw.2.1⟩

end RagService
