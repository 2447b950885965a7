import RagService.Foundation.Calls
import RagService.Service.Services

/-!
# Embedding in batches

A provider answers each call as it likes, knowing the calls before.  The halving of rejected
batches ends, sends fewer than two calls for each text, and puts the vectors in the order of
the texts.
-/

namespace RagService
namespace EmbeddingBatches

open Interleaving

/-!
# Providers

A provider may answer each batch as it likes, knowing the calls before.
-/

/-- What a provider answers to a batch after the calls it has had. -/
abbrev Provider := List (List Text) -> List Text -> Except Exception (List Embedding)

def serve (reply : Provider) (c : interface.Command) (calls : List (List Text)) :
    List (List Text) × Except interface.Error (interface.Result c) :=
  match c with
  | Command.embed _ batch => (calls ++ [batch], reply calls batch)
  | _ => (calls, .error Exception.database)

/-- An answer that is no error is the vectors of the texts. -/
def Pointwise (reply : Provider) (f : Text -> Embedding) : Prop :=
  forall calls batch vectors, reply calls batch = .ok vectors -> vectors = batch.map f

/-- No single text is answered with status 400. -/
def AcceptsSingles (reply : Provider) : Prop :=
  forall calls t, reply calls [t] ≠ .error (.httpStatus 400)

def embedAll (reply : Provider) (dimensions : Nat) (texts : List Text) (batchSize : Nat) :
    List (List Text) × Except Exception (List Embedding) :=
  (embedTextsInBatches (Action.embed dimensions) texts batchSize).run (serve reply) []

def runBatch (reply : Provider) (dimensions fuel : Nat) (batch : List Text)
    (calls : List (List Text)) : List (List Text) × Except Exception (List Embedding) :=
  (embedBatch (Action.embed dimensions) fuel batch).run (serve reply) calls

/-- A later call with a single text has not been answered with status 400. -/
def NoSingleRejected (reply : Provider) (calls calls' : List (List Text)) : Prop :=
  forall before t after, calls' = before ++ [t] :: after -> calls.length ≤ before.length ->
    reply before [t] ≠ .error (.httpStatus 400)

def Propagated (reply : Provider) (calls : List (List Text)) (e : Exception) : Prop :=
  exists before last, calls = before ++ [last] ∧ reply before last = .error e ∧
    (e = .httpStatus 400 -> last.length = 1)

variable {reply : Provider} {dimensions : Nat}

theorem run_embed_ok {batch : List Text} {calls : List (List Text)} {vectors : List Embedding}
    (h : reply calls batch = .ok vectors) :
    (Action.embed dimensions batch).run (serve reply) calls = (calls ++ [batch], .ok vectors) := by
  apply Program.run_issue_ok (I := interface)
  unfold serve
  dsimp only
  rw [h]
  rfl

theorem run_embed_error {batch : List Text} {calls : List (List Text)} {e : Exception}
    (h : reply calls batch = .error e) :
    (Action.embed dimensions batch).run (serve reply) calls = (calls ++ [batch], .error e) := by
  apply Program.run_issue_error (I := interface)
  unfold serve
  dsimp only
  rw [h]
  rfl

/-!
# Calls that have been made

What the halving of a batch does with the calls, for a rejected batch from its halves.
-/

theorem NoSingleRejected.trans {calls mid last : List (List Text)}
    (h : NoSingleRejected reply calls mid) (h' : NoSingleRejected reply mid last)
    (hlater : mid <+: last) : NoSingleRejected reply calls last := by
  intro before t after happend hlength
  cases Nat.lt_or_ge before.length mid.length with
  | inr hlate => exact h' before t after happend hlate
  | inl hearly =>
      have hstart : before ++ [[t]] <+: mid := by
        have hstarts : before ++ [[t]] <+: last := by
          rw [happend]
          exact ⟨after, List.append_assoc _ _ _⟩
        apply List.prefix_of_prefix_length_le hstarts hlater
        rw [List.length_append]
        exact hearly
      rcases hstart with ⟨rest, hrest⟩
      exact h before t rest (by rw [← hrest, List.append_assoc]; rfl) hlength

theorem NoSingleRejected.of_last {calls : List (List Text)} {batch : List Text}
    (h : forall t, batch = [t] -> reply calls [t] ≠ .error (.httpStatus 400)) :
    NoSingleRejected reply calls (calls ++ [batch]) := by
  intro before t after happend hlength
  have htotal := congrArg List.length happend
  rw [List.length_append, List.length_append, List.length_cons, List.length_cons] at htotal
  have hzero : ([] : List (List Text)).length = 0 := rfl
  have hparts := List.append_inj happend (by omega)
  rw [← hparts.1]
  exact h t (List.cons.inj hparts.2).1

structure Answered (reply : Provider) (calls : List (List Text)) (batch : List Text)
    (out : List (List Text) × Except Exception (List Embedding)) : Prop where
  sent : exists sent, out.1 = calls ++ sent ∧ sent.length + 1 ≤ 2 * batch.length
  ok : forall vectors, out.2 = .ok vectors ->
    NoSingleRejected reply calls out.1 ∧ forall f, Pointwise reply f -> vectors = batch.map f
  error : forall e, out.2 = .error e -> Propagated reply out.1 e

theorem Answered.of_ok {calls : List (List Text)} {batch : List Text} {vectors : List Embedding}
    {out : List (List Text) × Except Exception (List Embedding)} (hpositive : 1 ≤ batch.length)
    (h : reply calls batch = .ok vectors) (hout : out = (calls ++ [batch], .ok vectors)) :
    Answered reply calls batch out := by
  rw [hout]
  constructor
  · exists [batch]
    constructor
    · rfl
    · rw [List.length_singleton]
      omega
  · intro vectors' hvectors
    rw [← Except.ok.inj hvectors]
    constructor
    · apply NoSingleRejected.of_last
      intro t ht herror
      rw [ht, herror] at h
      cases h
    · intro f hf
      exact hf calls batch vectors h
  · intro e herror
    cases herror

theorem Answered.of_error {calls : List (List Text)} {batch : List Text} {e : Exception}
    {out : List (List Text) × Except Exception (List Embedding)} (hpositive : 1 ≤ batch.length)
    (h : reply calls batch = .error e) (hraise : e ≠ .httpStatus 400 ∨ batch.length = 1)
    (hout : out = (calls ++ [batch], .error e)) : Answered reply calls batch out := by
  rw [hout]
  constructor
  · exists [batch]
    constructor
    · rfl
    · rw [List.length_singleton]
      omega
  · intro vectors hvectors
    cases hvectors
  · intro e' herror
    rw [← Except.error.inj herror]
    exists calls, batch
    constructor
    · rfl
    · constructor
      · exact h
      · intro hstatus
        exact hraise.resolve_left fun hother => hother hstatus

section

variable {calls calls' calls'' : List (List Text)} {batch left right : List Text}

/-- The calls of a rejected batch and of both its halves. -/
theorem Answered.sent_halves {x y : Except Exception (List Embedding)}
    (hbatch : left ++ right = batch) (hleft : Answered reply (calls ++ [batch]) left (calls', x))
    (hright : Answered reply calls' right (calls'', y)) :
    exists sent, calls'' = calls ++ sent ∧ sent.length + 1 ≤ 2 * batch.length := by
  rcases hleft.sent with ⟨sent, hsent, hcount⟩
  rcases hright.sent with ⟨sent', hsent', hcount'⟩
  dsimp only at hsent hsent'
  exists batch :: (sent ++ sent')
  constructor
  · rw [hsent', hsent, List.append_assoc, List.append_assoc]
    rfl
  · rw [List.length_cons, List.length_append, ← hbatch, List.length_append]
    omega

theorem Answered.left_error {e : Exception} (hbatch : left ++ right = batch)
    (hleft : Answered reply (calls ++ [batch]) left (calls', .error e)) (hright : right ≠ []) :
    Answered reply calls batch (calls', .error e) := by
  have hpositive : 1 ≤ right.length := List.length_pos_iff.mpr hright
  constructor
  · rcases hleft.sent with ⟨sent, hsent, hcount⟩
    dsimp only at hsent
    exists batch :: sent
    constructor
    · rw [hsent, List.append_assoc]
      rfl
    · rw [List.length_cons, ← hbatch, List.length_append]
      omega
  · intro vectors hvectors
    cases hvectors
  · exact hleft.error

theorem Answered.right_error {vectors : List Embedding} {e : Exception}
    (hbatch : left ++ right = batch)
    (hleft : Answered reply (calls ++ [batch]) left (calls', .ok vectors))
    (hright : Answered reply calls' right (calls'', .error e)) :
    Answered reply calls batch (calls'', .error e) := by
  constructor
  · exact hleft.sent_halves hbatch hright
  · intro vectors' hvectors
    cases hvectors
  · exact hright.error

theorem Answered.both {vectors vectors' : List Embedding} (hbatch : left ++ right = batch)
    (hlength : batch.length ≠ 1)
    (hleft : Answered reply (calls ++ [batch]) left (calls', .ok vectors))
    (hright : Answered reply calls' right (calls'', .ok vectors')) :
    Answered reply calls batch (calls'', .ok (vectors ++ vectors')) := by
  constructor
  · exact hleft.sent_halves hbatch hright
  · intro both hboth
    rw [← Except.ok.inj hboth]
    rcases hleft.ok vectors rfl with ⟨hquiet, hvectors⟩
    rcases hright.ok vectors' rfl with ⟨hquiet', hvectors'⟩
    dsimp only at hquiet hquiet'
    constructor
    · have hfirst : NoSingleRejected reply calls (calls ++ [batch]) := by
        apply NoSingleRejected.of_last
        intro t ht
        rw [ht] at hlength
        exact absurd rfl hlength
      rcases hleft.sent with ⟨sent, hsent, -⟩
      rcases hright.sent with ⟨sent', hsent', -⟩
      exact (hfirst.trans hquiet ⟨sent, hsent.symm⟩).trans hquiet' ⟨sent', hsent'.symm⟩
    · intro f hf
      rw [hvectors f hf, hvectors' f hf, ← List.map_append, hbatch]
  · intro e herror
    cases herror

end

/-!
# Halving

A rejected batch of several texts goes on with its halves; that takes fewer than two calls for
each text.
-/

section

variable {fuel : Nat} {batch : List Text} {calls calls' calls'' : List (List Text)}

theorem runBatch_ok {vectors : List Embedding} (h : reply calls batch = .ok vectors) :
    runBatch reply dimensions fuel batch calls = (calls ++ [batch], .ok vectors) := by
  unfold runBatch
  rw [embedBatch]
  exact Program.run_handle_ok (run_embed_ok h) _

theorem runBatch_error {e : Exception} (h : reply calls batch = .error e)
    (hraise : e ≠ .httpStatus 400 ∨ batch.length = 1) :
    runBatch reply dimensions fuel batch calls = (calls ++ [batch], .error e) := by
  unfold runBatch
  rw [embedBatch]
  apply (Program.run_handle_error (run_embed_error h) _).trans
  rw [if_pos hraise]
  rfl

theorem runBatch_halve (h : reply calls batch = .error (.httpStatus 400))
    (hlength : batch.length ≠ 1) :
    runBatch reply dimensions (fuel + 1) batch calls =
      (do
        let left ← embedBatch (Action.embed dimensions) fuel (batch.take (batch.length / 2))
        let right ← embedBatch (Action.embed dimensions) fuel (batch.drop (batch.length / 2))
        return left ++ right : Action (List Embedding)).run (serve reply) (calls ++ [batch]) := by
  unfold runBatch
  rw [embedBatch]
  apply (Program.run_handle_error (run_embed_error h) _).trans
  rw [if_neg]
  intro hraise
  cases hraise with
  | inl hother => exact hother rfl
  | inr hone => exact hlength hone

theorem runBatch_left_error {e : Exception} (h : reply calls batch = .error (.httpStatus 400))
    (hlength : batch.length ≠ 1)
    (hleft : runBatch reply dimensions fuel (batch.take (batch.length / 2)) (calls ++ [batch]) =
      (calls', .error e)) :
    runBatch reply dimensions (fuel + 1) batch calls = (calls', .error e) := by
  rw [runBatch_halve h hlength]
  exact Program.run_bind_error hleft _

theorem runBatch_right_error {left : List Embedding} {e : Exception}
    (h : reply calls batch = .error (.httpStatus 400)) (hlength : batch.length ≠ 1)
    (hleft : runBatch reply dimensions fuel (batch.take (batch.length / 2)) (calls ++ [batch]) =
      (calls', .ok left))
    (hright : runBatch reply dimensions fuel (batch.drop (batch.length / 2)) calls' =
      (calls'', .error e)) :
    runBatch reply dimensions (fuel + 1) batch calls = (calls'', .error e) := by
  rw [runBatch_halve h hlength]
  apply (Program.run_bind_ok hleft _).trans
  exact Program.run_bind_error hright _

theorem runBatch_both {left right : List Embedding}
    (h : reply calls batch = .error (.httpStatus 400)) (hlength : batch.length ≠ 1)
    (hleft : runBatch reply dimensions fuel (batch.take (batch.length / 2)) (calls ++ [batch]) =
      (calls', .ok left))
    (hright : runBatch reply dimensions fuel (batch.drop (batch.length / 2)) calls' =
      (calls'', .ok right)) :
    runBatch reply dimensions (fuel + 1) batch calls = (calls'', .ok (left ++ right)) := by
  rw [runBatch_halve h hlength]
  apply (Program.run_bind_ok hleft _).trans
  exact Program.run_bind_ok hright _

theorem answered_runBatch (hne : batch ≠ []) (hfuel : batch.length ≤ fuel + 1) :
    Answered reply calls batch (runBatch reply dimensions fuel batch calls) := by
  have hpositive : 1 ≤ batch.length := List.length_pos_iff.mpr hne
  induction fuel generalizing batch calls with
  | zero =>
      have hone : batch.length = 1 := by omega
      cases hreply : reply calls batch with
      | ok vectors => exact .of_ok hpositive hreply (runBatch_ok hreply)
      | error e => exact .of_error hpositive hreply (.inr hone) (runBatch_error hreply (.inr hone))
  | succ fuel ih =>
      cases hreply : reply calls batch with
      | ok vectors => exact .of_ok hpositive hreply (runBatch_ok hreply)
      | error e =>
          by_cases hraise : e ≠ .httpStatus 400 ∨ batch.length = 1
          · exact .of_error hpositive hreply hraise (runBatch_error hreply hraise)
          · have hstatus : e = .httpStatus 400 := by
              apply Decidable.not_not.mp
              exact fun hother => hraise (.inl hother)
            have hlength : batch.length ≠ 1 := fun hone => hraise (.inr hone)
            rw [hstatus] at hreply
            have htake : (batch.take (batch.length / 2)).length = batch.length / 2 := by
              rw [List.length_take]
              omega
            have hdrop : (batch.drop (batch.length / 2)).length =
                batch.length - batch.length / 2 := List.length_drop
            have hbatch : batch.take (batch.length / 2) ++ batch.drop (batch.length / 2) = batch :=
              List.take_append_drop _ batch
            have hleft : Answered reply (calls ++ [batch]) (batch.take (batch.length / 2))
                (runBatch reply dimensions fuel (batch.take (batch.length / 2))
                  (calls ++ [batch])) :=
              ih (List.ne_nil_of_length_pos (by omega)) (by omega) (by omega)
            have hnonempty : batch.drop (batch.length / 2) ≠ [] :=
              List.ne_nil_of_length_pos (by omega)
            have hright : forall calls', Answered reply calls' (batch.drop (batch.length / 2))
                (runBatch reply dimensions fuel (batch.drop (batch.length / 2)) calls') :=
              fun _ => ih hnonempty (by omega) (by omega)
            cases hrunLeft : runBatch reply dimensions fuel (batch.take (batch.length / 2))
              (calls ++ [batch]) with
            | mk calls' left =>
                rw [hrunLeft] at hleft
                cases left with
                | error e' =>
                    rw [runBatch_left_error hreply hlength hrunLeft]
                    exact hleft.left_error hbatch hnonempty
                | ok left =>
                    have hright := hright calls'
                    cases hrunRight : runBatch reply dimensions fuel
                      (batch.drop (batch.length / 2)) calls' with
                    | mk calls'' right =>
                        rw [hrunRight] at hright
                        cases right with
                        | error e' =>
                            rw [runBatch_right_error hreply hlength hrunLeft hrunRight]
                            exact hleft.right_error hbatch hright
                        | ok right =>
                            rw [runBatch_both hreply hlength hrunLeft hrunRight]
                            exact hleft.both hbatch hlength hright

end

/-!
# All the batches

More fuel than there are texts changes nothing, so the halving ends.
-/

theorem embedBatch_fuel (embed : List Text -> Action (List Embedding)) {fuel fuel' : Nat}
    {batch : List Text} (hne : batch ≠ []) (hfuel : batch.length ≤ fuel + 1)
    (hfuel' : batch.length ≤ fuel' + 1) :
    embedBatch embed fuel batch = embedBatch embed fuel' batch := by
  have hpositive : 1 ≤ batch.length := List.length_pos_iff.mpr hne
  induction fuel generalizing batch fuel' with
  | zero =>
      have hone : batch.length = 1 := by omega
      rw [embedBatch, embedBatch]
      congr 1
      funext exc
      rw [if_pos (.inr hone), if_pos (.inr hone)]
  | succ fuel ih =>
      rw [embedBatch, embedBatch]
      congr 1
      funext exc
      split
      · rfl
      · rename_i hhalve
        have hlength : batch.length ≠ 1 := fun hone => hhalve (.inr hone)
        cases fuel' with
        | zero => exact absurd hfuel' (by omega)
        | succ fuel' =>
            have htake : (batch.take (batch.length / 2)).length = batch.length / 2 := by
              rw [List.length_take]
              omega
            have hdrop : (batch.drop (batch.length / 2)).length =
                batch.length - batch.length / 2 := List.length_drop
            have hleft : embedBatch embed fuel (batch.take (batch.length / 2)) =
                embedBatch embed fuel' (batch.take (batch.length / 2)) :=
              ih (List.ne_nil_of_length_pos (by omega)) (by omega) (by omega) (by omega)
            have hright : embedBatch embed fuel (batch.drop (batch.length / 2)) =
                embedBatch embed fuel' (batch.drop (batch.length / 2)) :=
              ih (List.ne_nil_of_length_pos (by omega)) (by omega) (by omega) (by omega)
            dsimp only
            rw [hleft, hright]

theorem batches_ne_nil {texts batch : List Text} {size : Nat} (hsize : 1 ≤ size)
    (h : batch ∈ batches texts size) : batch ≠ [] := by
  rcases List.mem_map.mp h with ⟨i, hi, rfl⟩
  have hlt := List.mem_range.mp hi
  rw [Nat.lt_div_iff_mul_lt hsize] at hlt
  apply List.ne_nil_of_length_pos
  have hcomm := Nat.mul_comm i size
  rw [List.length_take, List.length_drop]
  omega

theorem flatten_slices {α : Type} (texts : List α) (size n : Nat) :
    ((List.range n).map fun i => (texts.drop (i * size)).take size).flatten =
      texts.take (n * size) := by
  induction n with
  | zero => rw [Nat.zero_mul, List.take_zero]; rfl
  | succ n ih =>
      rw [List.range_succ, List.map_append, List.flatten_append, ih, Nat.succ_mul, List.take_add]
      simp

theorem flatten_batches (texts : List Text) {size : Nat} (hsize : 1 ≤ size) :
    (batches texts size).flatten = texts := by
  unfold batches
  rw [flatten_slices]
  apply List.take_of_length_le
  have hceil := Nat.lt_div_mul_add (a := texts.length + size - 1) hsize
  omega

theorem run_mapEach_batches (reply : Provider) (dimensions : Nat) {bs : List (List Text)}
    (hbs : forall batch, batch ∈ bs -> batch ≠ []) (calls : List (List Text)) :
    exists calls' outcome,
      (Program.mapEach bs fun batch =>
        embedBatch (Action.embed dimensions) batch.length batch).run (serve reply) calls =
          (calls', outcome) ∧ calls <+: calls' ∧
        (forall vectors, outcome = .ok vectors -> NoSingleRejected reply calls calls' ∧
          forall f, Pointwise reply f -> vectors = bs.map (List.map f)) ∧
        forall e, outcome = .error e -> Propagated reply calls' e := by
  induction bs generalizing calls with
  | nil =>
      refine ⟨calls, .ok [], rfl, List.prefix_refl calls, ?_, ?_⟩
      · intro vectors hvectors
        constructor
        · intro before t after happend hlength
          have htotal := congrArg List.length happend
          rw [List.length_append, List.length_cons] at htotal
          omega
        · intro f _
          exact (Except.ok.inj hvectors).symm
      · intro e herror
        cases herror
  | cons batch rest ih =>
      have hanswered : Answered reply calls batch
          (runBatch reply dimensions batch.length batch calls) :=
        answered_runBatch (hbs batch List.mem_cons_self) (Nat.le_succ batch.length)
      cases hfirst : runBatch reply dimensions batch.length batch calls with
      | mk calls₁ first =>
          rw [hfirst] at hanswered
          rcases hanswered.sent with ⟨sent, hsent, -⟩
          have hprefix : calls <+: calls₁ := ⟨sent, hsent.symm⟩
          cases first with
          | error e =>
              refine ⟨calls₁, .error e, Program.run_bind_error hfirst _, hprefix, ?_, ?_⟩
              · intro vectors hvectors
                cases hvectors
              · intro e' herror
                rw [← Except.error.inj herror]
                exact hanswered.error e rfl
          | ok vectors =>
              rcases hanswered.ok vectors rfl with ⟨hquiet, hvectors⟩
              obtain ⟨calls₂, outcome, hrest, hprefix', hok, herror⟩ :=
                ih (fun later hlater => hbs later (List.mem_cons_of_mem _ hlater)) calls₁
              cases outcome with
              | error e =>
                  refine ⟨calls₂, .error e, ?_, hprefix.trans hprefix', ?_, herror⟩
                  · apply (Program.run_bind_ok hfirst _).trans
                    exact Program.run_bind_error hrest _
                  · intro vectors' hvectors'
                    cases hvectors'
              | ok later =>
                  rcases hok later rfl with ⟨hquiet', hlater⟩
                  refine ⟨calls₂, .ok (vectors :: later), ?_, hprefix.trans hprefix', ?_, ?_⟩
                  · apply (Program.run_bind_ok hfirst _).trans
                    exact Program.run_bind_ok hrest _
                  · intro all hall
                    rw [← Except.ok.inj hall]
                    constructor
                    · exact hquiet.trans hquiet' hprefix'
                    · intro f hf
                      rw [hvectors f hf, hlater f hf]
                      rfl
                  · intro e herror
                    cases herror

theorem embedAll_cases (reply : Provider) (dimensions : Nat) (texts : List Text) {batchSize : Nat}
    (hsize : 1 ≤ batchSize) :
    (forall vectors, (embedAll reply dimensions texts batchSize).2 = .ok vectors ->
      NoSingleRejected reply [] (embedAll reply dimensions texts batchSize).1 ∧
        forall f, Pointwise reply f -> vectors = texts.map f) ∧
      forall e, (embedAll reply dimensions texts batchSize).2 = .error e ->
        Propagated reply (embedAll reply dimensions texts batchSize).1 e := by
  have hnonempty : forall batch, batch ∈ batches texts batchSize -> batch ≠ [] :=
    fun _ hbatch => batches_ne_nil hsize hbatch
  rcases run_mapEach_batches reply dimensions hnonempty [] with
    ⟨calls, outcome, hrun, -, hok, herror⟩
  have hguard : ¬ batchSize < 1 := Nat.not_lt.mpr hsize
  cases outcome with
  | error e =>
      have hall : embedAll reply dimensions texts batchSize = (calls, .error e) := by
        unfold embedAll embedTextsInBatches
        rw [if_neg hguard]
        exact Program.run_bind_error hrun _
      rw [hall]
      constructor
      · intro vectors hvectors
        cases hvectors
      · intro e' heq
        rw [← Except.error.inj heq]
        exact herror e rfl
  | ok vectors =>
      have hall : embedAll reply dimensions texts batchSize = (calls, .ok vectors.flatten) := by
        unfold embedAll embedTextsInBatches
        rw [if_neg hguard]
        exact Program.run_bind_ok hrun _
      rcases hok vectors rfl with ⟨hquiet, hvectors⟩
      rw [hall]
      constructor
      · intro vectors' hvectors'
        rw [← Except.ok.inj hvectors']
        constructor
        · exact hquiet
        · intro f hf
          rw [hvectors f hf, ← List.map_flatten, flatten_batches texts hsize]
      · intro e hout
        cases hout

/--
Embedding in batches is embedding each text; a single text that is rejected makes it raise;
a batch of `k` texts takes at most `2 * k - 1` calls, and the halving ends.
-/
theorem embed_texts_in_batches (reply : Provider) (dimensions : Nat) (texts : List Text)
    {batchSize : Nat} (hsize : 1 ≤ batchSize) :
    (forall f, Pointwise reply f -> AcceptsSingles reply ->
      (embedAll reply dimensions texts batchSize).2 = .ok (texts.map f) ∨
        exists e, (embedAll reply dimensions texts batchSize).2 = .error e ∧
          e ≠ .httpStatus 400 ∧ Propagated reply (embedAll reply dimensions texts batchSize).1 e) ∧
    ((exists before t after,
        (embedAll reply dimensions texts batchSize).1 = before ++ [t] :: after ∧
          reply before [t] = .error (.httpStatus 400)) ->
      exists e, (embedAll reply dimensions texts batchSize).2 = .error e) ∧
    (forall batch calls, batch ≠ [] -> exists sent,
      (runBatch reply dimensions batch.length batch calls).1 = calls ++ sent ∧
        sent.length ≤ 2 * batch.length - 1) ∧
    forall batch fuel, batch ≠ [] -> batch.length ≤ fuel ->
      embedBatch (Action.embed dimensions) fuel batch =
        embedBatch (Action.embed dimensions) batch.length batch := by
  rcases embedAll_cases reply dimensions texts hsize with ⟨hok, herror⟩
  constructor
  · intro f hf hsingles
    cases houtcome : (embedAll reply dimensions texts batchSize).2 with
    | ok vectors =>
        left
        rw [(hok vectors houtcome).2 f hf]
    | error e =>
        right
        have hpropagated := herror e houtcome
        refine ⟨e, rfl, ?_, hpropagated⟩
        intro hstatus
        rcases hpropagated with ⟨before, last, -, hlast, hlength⟩
        rcases List.length_eq_one_iff.mp (hlength hstatus) with ⟨t, rfl⟩
        rw [hstatus] at hlast
        exact hsingles before t hlast
  · constructor
    · intro hrejected
      rcases hrejected with ⟨before, t, after, happend, hreply⟩
      cases houtcome : (embedAll reply dimensions texts batchSize).2 with
      | ok vectors =>
          exact absurd hreply ((hok vectors houtcome).1 before t after happend (Nat.zero_le _))
      | error e => exact ⟨e, rfl⟩
    · constructor
      · intro batch calls hne
        have hanswered : Answered reply calls batch
            (runBatch reply dimensions batch.length batch calls) :=
          answered_runBatch hne (Nat.le_succ batch.length)
        rcases hanswered.sent with ⟨sent, hsent, hcount⟩
        exact ⟨sent, hsent, by omega⟩
      · intro batch fuel hne hfuel
        exact embedBatch_fuel _ hne (Nat.le_succ_of_le hfuel) (Nat.le_succ _)

def oneByOne : Provider
  | _, [t] => .ok [[(t.length : Rat)]]
  | _, _ => .error (.httpStatus 400)

theorem embed_texts_in_batches_sample :
    (embedAll oneByOne 1 ["a".toList, "bc".toList] 2).2 =
        .ok (["a".toList, "bc".toList].map fun t => [(t.length : Rat)]) ∨
      exists e, (embedAll oneByOne 1 ["a".toList, "bc".toList] 2).2 = .error e ∧
        e ≠ .httpStatus 400 ∧
          Propagated oneByOne (embedAll oneByOne 1 ["a".toList, "bc".toList] 2).1 e := by
  apply (embed_texts_in_batches oneByOne 1 ["a".toList, "bc".toList] (by decide)).1
  · intro calls batch vectors h
    unfold oneByOne at h
    split at h
    · rw [← Except.ok.inj h]
      rfl
    · cases h
  · intro calls t h
    cases h

end EmbeddingBatches
end RagService
