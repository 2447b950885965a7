import RagService.Admin.Passwords

/-!
# Reuse of passwords

The history of a user against the passwords that have been in force, over all runs of
requests.
-/

namespace RagService
namespace Passwords

/-!
# Passwords in force

The history of a user stands in the order of its ids.
-/

def Verifies (hasher : PasswordHash) : Prop :=
  forall p q salt, hasher.verify p (hasher.hash q salt) = true ↔ p = q

/-- Ids are drawn in increasing order, and the history is that of users. -/
structure Consistent (db : PasswordDb) : Prop where
  distinct : db.users.ids.Nodup
  users : forall row, row ∈ db.users -> row.id < db.nextUser
  owners : forall row, row ∈ db.history -> row.userId < db.nextUser
  rows : forall row, row ∈ db.history -> row.id < db.nextHistory
  order : db.history.Pairwise fun x y => x.id < y.id

def PasswordRequest.newPassword (userId : Nat) (request : PasswordRequest) : Option Text :=
  match request.changes with
  | some (id, password) => if id = userId then some password else none
  | none => none

/--
The passwords that have been in force for a user, the last one first, from its creation on and
over any requests after it, for all users, with one check count.
-/
inductive InForce (hasher : PasswordHash) (refreshes : Bool) (count : Int) (userId : Nat) :
    PasswordDb -> List Text -> Prop where
  | created {db : PasswordDb} {password : Text} {salt : Bytes} :
      Consistent db -> db.nextUser = userId ->
        InForce hasher refreshes count userId (add hasher db password salt) [password]
  | performed {db db' : PasswordDb} {passwords : List Text} {settings : PasswordSettings}
      {request : PasswordRequest} :
      InForce hasher refreshes count userId db passwords -> settings.historyCheckCount = count ->
        perform hasher refreshes settings db request = .ok db' ->
          InForce hasher refreshes count userId db'
            ((request.newPassword userId).toList ++ passwords)

/-- The passwords in force that have been saved: all but the first, or all but the last. -/
def saved (refreshes : Bool) (passwords : List Text) : List Text :=
  if refreshes then passwords.dropLast else passwords.tail

structure Recorded (hasher : PasswordHash) (refreshes : Bool) (userId : Nat) (db : PasswordDb)
    (passwords : List Text) : Prop where
  consistent : Consistent db
  known : userId < db.nextUser
  current : exists password rest, passwords = password :: rest ∧
    forall row, row ∈ db.users -> row.id = userId ->
      exists salt, row.value.password = some (hasher.hash password salt)
  history : List.Forall₂ (fun (row : PasswordHistory) password =>
    exists salt, row.password = hasher.hash password salt)
      (getByUserId db userId) (saved refreshes passwords)

section History

variable {db : PasswordDb}

theorem getByUserId_eq (h : Consistent db) (userId : Nat) :
    getByUserId db userId = (db.history.filter fun row => row.userId = userId).reverse := by
  have hsorted : (db.history.filter fun row => row.userId = userId).Pairwise
      fun x y => x.id ≤ y.id :=
    (h.order.filter _).imp fun h => Nat.le_of_lt h
  rw [getByUserId, Sorting.sortOn_eq_self hsorted]

end History

/-!
# What a request does

Every request that sets a password validates it, so it is none of those that are checked, and
then saves one; the other requests keep the history and the passwords of the users.
-/

section Steps

variable {hasher : PasswordHash} {refreshes : Bool} {settings : PasswordSettings}
variable {db db' : PasswordDb} {request : PasswordRequest}

theorem refuse_ok {check : Bool} {e : PasswordError} (h : refuse check e = .ok ()) :
    check = false := by
  cases check with
  | false => rfl
  | true => cases h

theorem bind_ok {α β : Type} {x : Except PasswordError α} {f : α -> Except PasswordError β}
    {b : β} (h : x.bind f = .ok b) : exists a, x = .ok a ∧ f a = .ok b := by
  cases x with
  | error e => cases h
  | ok a => exact ⟨a, rfl, h⟩

theorem validateNewPassword_ok {userId : Nat} {newPassword : Text}
    (h : validateNewPassword hasher settings db userId newPassword = .ok ()) :
    forall hist, hist ∈ sliceTo (getByUserId db userId) settings.historyCheckCount ->
      hasher.verify newPassword hist.password = false := by
  unfold validateNewPassword at h
  rcases bind_ok h with ⟨_, -, h⟩
  rcases bind_ok h with ⟨_, -, h⟩
  rcases bind_ok h with ⟨_, -, h⟩
  rcases bind_ok h with ⟨_, -, h⟩
  rcases bind_ok h with ⟨_, -, h⟩
  intro hist hmem
  have hnone := List.any_eq_false.mp (refuse_ok h) hist hmem
  exact Bool.not_eq_true _ ▸ hnone

structure Changed (hasher : PasswordHash) (refreshes : Bool) (settings : PasswordSettings)
    (db : PasswordDb) (userId : Nat) (password : Text) (db' : PasswordDb) : Prop where
  validated : validateNewPassword hasher settings db userId password = .ok ()
  result : exists user salt old, db.users.get userId = some user ∧
    (if refreshes then some (hasher.hash password salt) else user.value.password) = some old ∧
      db' = { db with
        users := db.users.update [userId] fun account =>
          { account with password := some (hasher.hash password salt) }
        history := db.history ++ [⟨db.nextHistory, userId, old⟩]
        nextHistory := db.nextHistory + 1 }

theorem changed_of_changePassword {userId : Nat} {user : Row Account} {password : Text}
    {salt : Bytes} (hget : db.users.get userId = some user)
    (hvalidated : validateNewPassword hasher settings db userId password = .ok ())
    (h : changePassword hasher refreshes db user password salt = .ok db') :
    Changed hasher refreshes settings db userId password db' := by
  have hid : user.id = userId := (Table.get_mem hget).2.2
  refine ⟨hvalidated, user, salt, ?_⟩
  unfold changePassword savePasswordHistory at h
  rw [hid] at h
  dsimp only at h
  split at h
  · cases h
  · rename_i old hold
    exact ⟨old, hget, hold, (Except.ok.inj h).symm⟩

theorem perform_changes {userId : Nat} {password : Text}
    (h : perform hasher refreshes settings db request = .ok db')
    (hchanges : request.changes = some (userId, password)) :
    Changed hasher refreshes settings db userId password db' := by
  cases request with
  | add | addByOauth2 | delete => cases hchanges
  | resetPassword pk new salt =>
      cases hchanges
      unfold perform resetPassword at h
      dsimp only at h
      split at h
      · cases h
      · rename_i user hget
        have hid : user.id = userId := (Table.get_mem hget).2.2
        rcases bind_ok h with ⟨_, hvalidated, h⟩
        rw [hid] at hvalidated
        exact changed_of_changePassword hget hvalidated h
  | updatePassword id obj salt =>
      cases hchanges
      unfold perform updatePassword at h
      dsimp only at h
      split at h
      · cases h
      · rename_i user hget
        rcases bind_ok h with ⟨_, -, h⟩
        rcases bind_ok h with ⟨_, -, h⟩
        rcases bind_ok h with ⟨_, hvalidated, h⟩
        exact changed_of_changePassword hget hvalidated h

structure Kept (db db' : PasswordDb) : Prop where
  history : db'.history = db.history
  nextHistory : db'.nextHistory = db.nextHistory
  nextUser : db.nextUser ≤ db'.nextUser
  distinct : db'.users.ids.Nodup
  users : forall row, row ∈ db'.users -> row.id < db'.nextUser ∧
    (row.id < db.nextUser -> exists old, old ∈ db.users ∧ old.id = row.id ∧
      row.value = old.value)

theorem kept_create (h : Consistent db) (account : Account) :
    Kept db { db with
      users := db.users.create db.nextUser account
      nextUser := db.nextUser + 1 } where
  history := rfl
  nextHistory := rfl
  nextUser := Nat.le_succ _
  distinct := by
    refine Table.nodup_ids_create h.distinct fun hmem => ?_
    rcases List.mem_map.mp hmem with ⟨row, hrow, hid⟩
    exact absurd (h.users row hrow) (by omega)
  users row hrow := by
    rcases List.mem_append.mp hrow with hold | hnew
    · exact ⟨Nat.lt_succ_of_lt (h.users row hold), fun _ => ⟨row, hold, rfl, rfl⟩⟩
    · rw [List.mem_singleton.mp hnew]
      exact ⟨Nat.lt_succ_self _, fun hlt => absurd hlt (Nat.lt_irrefl _)⟩

theorem perform_keeps (hconsistent : Consistent db)
    (h : perform hasher refreshes settings db request = .ok db')
    (hchanges : request.changes = none) : Kept db db' := by
  cases request with
  | resetPassword | updatePassword => cases hchanges
  | add password salt =>
      cases h
      exact kept_create hconsistent _
  | addByOauth2 =>
      cases h
      exact kept_create hconsistent _
  | delete pk =>
      unfold perform delete at h
      dsimp only at h
      split at h
      · cases h
      · cases h
        refine ⟨rfl, rfl, Nat.le_refl _, ?_, fun row hrow => ?_⟩
        · rw [Table.ids_delete]
          exact hconsistent.distinct
        · rcases List.mem_map.mp hrow with ⟨old, hold, rfl⟩
          dsimp only
          split
          · exact ⟨hconsistent.users old hold, fun _ => ⟨old, hold, rfl, rfl⟩⟩
          · exact ⟨hconsistent.users old hold, fun _ => ⟨old, hold, rfl, rfl⟩⟩

end Steps

/-!
# The history over a run

Along a run the tables know the passwords in force: the creation of a user saves nothing, and
each change saves one more.  So an accepted password is none of the saved ones that are
checked.
-/

section Runs

variable {hasher : PasswordHash} {refreshes : Bool} {settings : PasswordSettings}
variable {count : Int} {userId : Nat} {db db' : PasswordDb} {passwords : List Text}

theorem saved_cons (password current : Text) (rest : List Text) :
    saved refreshes (password :: current :: rest) =
      (if refreshes then password else current) :: saved refreshes (current :: rest) := by
  cases refreshes with
  | true => rfl
  | false => rfl

theorem Kept.consistent (h : Consistent db) (hkept : Kept db db') : Consistent db' where
  distinct := hkept.distinct
  users row hrow := (hkept.users row hrow).1
  owners := by
    rw [hkept.history]
    exact fun row hrow => Nat.lt_of_lt_of_le (h.owners row hrow) hkept.nextUser
  rows := by
    rw [hkept.history, hkept.nextHistory]
    exact h.rows
  order := by
    rw [hkept.history]
    exact h.order

theorem Recorded.kept (h : Recorded hasher refreshes userId db passwords) (hkept : Kept db db') :
    Recorded hasher refreshes userId db' passwords where
  consistent := hkept.consistent h.consistent
  known := Nat.lt_of_lt_of_le h.known hkept.nextUser
  current := by
    rcases h.current with ⟨password, rest, hpasswords, hcurrent⟩
    refine ⟨password, rest, hpasswords, fun row hrow hid => ?_⟩
    rcases (hkept.users row hrow).2 (hid ▸ h.known) with ⟨old, hold, holdId, hvalue⟩
    rw [hvalue]
    exact hcurrent old hold (holdId.trans hid)
  history := by
    have hhistory := h.history
    rw [getByUserId, ← hkept.history] at hhistory
    exact hhistory

theorem Changed.consistent {id : Nat} {password : Text} (hconsistent : Consistent db)
    (h : Changed hasher refreshes settings db id password db') : Consistent db' := by
  rcases h.result with ⟨user, salt, old, hget, -, rfl⟩
  have howner : id < db.nextUser := by
    rcases Table.get_mem hget with ⟨huser, -, hid⟩
    exact hid ▸ hconsistent.users user huser
  constructor
  · dsimp only
    rw [Table.ids_update]
    exact hconsistent.distinct
  · intro row hrow
    rcases List.mem_map.mp hrow with ⟨before, hbefore, rfl⟩
    dsimp only
    split
    · exact hconsistent.users before hbefore
    · exact hconsistent.users before hbefore
  · intro row hrow
    rcases List.mem_append.mp hrow with hold | hnew
    · exact hconsistent.owners row hold
    · rw [List.mem_singleton.mp hnew]
      exact howner
  · intro row hrow
    rcases List.mem_append.mp hrow with hold | hnew
    · exact Nat.lt_succ_of_lt (hconsistent.rows row hold)
    · rw [List.mem_singleton.mp hnew]
      exact Nat.lt_succ_self _
  · refine List.pairwise_append.mpr ⟨hconsistent.order, List.pairwise_singleton _ _, ?_⟩
    intro row hrow last hlast
    rw [List.mem_singleton.mp hlast]
    exact hconsistent.rows row hrow

theorem Recorded.changed_other {id : Nat} {password : Text}
    (h : Recorded hasher refreshes userId db passwords) (hid : id ≠ userId)
    (hchanged : Changed hasher refreshes settings db id password db') :
    Recorded hasher refreshes userId db' passwords := by
  have hconsistent := hchanged.consistent h.consistent
  rcases hchanged.result with ⟨user, salt, old, -, -, rfl⟩
  refine ⟨hconsistent, h.known, ?_, ?_⟩
  · rcases h.current with ⟨current, rest, hpasswords, hcurrent⟩
    refine ⟨current, rest, hpasswords, fun row hrow hrowId => ?_⟩
    rcases List.mem_map.mp hrow with ⟨before, hbefore, rfl⟩
    have hother : ¬ (before.deleted = 0 ∧ before.id ∈ [id]) := by
      intro hboth
      have hmem := hboth.2
      rw [if_pos hboth] at hrowId
      exact hid ((List.mem_singleton.mp hmem).symm.trans hrowId)
    rw [if_neg hother] at hrowId ⊢
    exact hcurrent before hbefore hrowId
  · have hhistory := h.history
    rw [getByUserId_eq h.consistent] at hhistory
    rw [getByUserId_eq hconsistent]
    simpa [hid] using hhistory

theorem Recorded.changed {password : Text} (h : Recorded hasher refreshes userId db passwords)
    (hchanged : Changed hasher refreshes settings db userId password db') :
    Recorded hasher refreshes userId db' (password :: passwords) := by
  have hconsistent := hchanged.consistent h.consistent
  rcases hchanged.result with ⟨user, salt, old, hget, hold, rfl⟩
  rcases h.current with ⟨current, rest, rfl, hcurrent⟩
  rcases Table.get_mem hget with ⟨huser, hlive, hid⟩
  refine ⟨hconsistent, h.known, ⟨password, _, rfl, ?_⟩, ?_⟩
  · intro row hrow hrowId
    rcases List.mem_map.mp hrow with ⟨before, hbefore, rfl⟩
    have hbeforeId : before.id = user.id := by
      split at hrowId
      · exact hrowId.trans hid.symm
      · exact hrowId.trans hid.symm
    have hsame : before = user :=
      List.inj_on_of_nodup_map h.consistent.distinct hbefore huser hbeforeId
    rw [hsame, if_pos ⟨hlive, List.mem_singleton.mpr hid⟩]
    exact ⟨salt, rfl⟩
  · have hhistory := h.history
    rw [getByUserId_eq h.consistent] at hhistory
    rw [getByUserId_eq hconsistent, saved_cons]
    have hsaved : exists salt, old =
        hasher.hash (if refreshes then password else current) salt := by
      cases refreshes with
      | true => exact ⟨salt, (Option.some.inj hold).symm⟩
      | false =>
          rcases hcurrent user huser hid with ⟨salt', hpassword⟩
          exact ⟨salt', Option.some.inj (hold.symm.trans hpassword)⟩
    simpa using ⟨hsaved, by simpa using hhistory⟩

theorem recorded_created {password : Text} {salt : Bytes} (hconsistent : Consistent db) :
    Recorded hasher refreshes db.nextUser (add hasher db password salt) [password] := by
  have hadded : Consistent (add hasher db password salt) :=
    (kept_create hconsistent _).consistent hconsistent
  have hnone : (db.history.filter fun row => row.userId = db.nextUser) = [] := by
    refine List.filter_eq_nil_iff.mpr fun row hrow => ?_
    have howner := hconsistent.owners row hrow
    simp only [decide_eq_true_eq]
    omega
  refine ⟨hadded, Nat.lt_succ_self _, ⟨password, [], rfl, ?_⟩, ?_⟩
  · intro row hrow hid
    rcases List.mem_append.mp hrow with hold | hnew
    · exact absurd (hconsistent.users row hold) (by omega)
    · rw [List.mem_singleton.mp hnew]
      exact ⟨salt, rfl⟩
  · have hsaved : saved refreshes [password] = [] := by
      cases refreshes with
      | true => rfl
      | false => rfl
    have hempty : getByUserId (add hasher db password salt) db.nextUser = [] := by
      rw [getByUserId_eq hadded]
      exact congrArg List.reverse hnone
    rw [hsaved, hempty]
    exact .nil

/-- The tables of every run know the passwords in force. -/
theorem recorded_inForce (hrun : InForce hasher refreshes count userId db passwords) :
    Recorded hasher refreshes userId db passwords := by
  induction hrun with
  | created hconsistent hid =>
      subst hid
      exact recorded_created hconsistent
  | performed hrun hcount hperform ih =>
      rename_i db db' passwords settings request
      cases hchanges : request.changes with
      | none =>
          rw [PasswordRequest.newPassword, hchanges]
          exact ih.kept (perform_keeps ih.consistent hperform hchanges)
      | some change =>
          rcases change with ⟨id, password⟩
          have hchanged := perform_changes hperform hchanges
          rw [PasswordRequest.newPassword, hchanges]
          dsimp only
          split
          · rename_i hid
            subst hid
            exact ih.changed hchanged
          · rename_i hid
            exact ih.changed_other hid hchanged

theorem not_mem_saved {password : Text} (hverify : Verifies hasher) (hcount : 1 ≤ count)
    (h : Recorded hasher refreshes userId db passwords)
    (hsettings : settings.historyCheckCount = count)
    (hvalidated : validateNewPassword hasher settings db userId password = .ok ()) :
    password ∉ (saved refreshes passwords).take count.toNat := by
  intro hmem
  have hchecked := validateNewPassword_ok hvalidated
  rw [hsettings, sliceTo, if_pos (by omega)] at hchecked
  have htake := List.forall₂_take count.toNat h.history
  rcases List.mem_iff_getElem.mp hmem with ⟨n, hn, hget⟩
  have hlength := htake.length_eq
  rcases htake.get (i := n) (by omega) hn with ⟨salt, hhash⟩
  have hrejected := hchecked _ (List.get_mem _ ⟨n, by omega⟩)
  have hpassword : ((saved refreshes passwords).take count.toNat).get ⟨n, hn⟩ = password := hget
  rw [hhash, hpassword, (hverify password password salt).mpr rfl] at hrejected
  cases hrejected

theorem accepted_not_saved (hverify : Verifies hasher) (hcount : 1 ≤ count)
    (hrun : InForce hasher refreshes count userId db passwords) :
    forall later password earlier, passwords = later ++ password :: earlier -> earlier ≠ [] ->
      password ∉ (saved refreshes earlier).take count.toNat := by
  induction hrun with
  | created =>
      intro later password earlier heq hne
      cases later with
      | nil => exact absurd (List.cons.inj heq).2.symm hne
      | cons q later => exact absurd (congrArg List.length heq) (by simp)
  | performed hrun hsettings hperform ih =>
      rename_i db db' passwords settings request
      intro later password earlier heq hne
      cases hchanges : request.changes with
      | none =>
          rw [PasswordRequest.newPassword, hchanges] at heq
          exact ih later password earlier heq hne
      | some change =>
          rcases change with ⟨id, new⟩
          rw [PasswordRequest.newPassword, hchanges] at heq
          dsimp only at heq
          split at heq
          · rename_i hid
            subst hid
            cases later with
            | nil =>
                rcases List.cons.inj heq with ⟨rfl, rfl⟩
                exact not_mem_saved hverify hcount (recorded_inForce hrun) hsettings
                  (perform_changes hperform hchanges).validated
            | cons q later =>
                exact ih later password earlier (List.cons.inj heq).2 hne
          · exact ih later password earlier heq hne

/-- The new password is not the one that is not saved, as far as that one is to be checked. -/
def Unsaved (refreshes : Bool) (count : Nat) (earlier : List Text) (password : Text) : Prop :=
  if refreshes then earlier.getLast? = some password -> count < earlier.length
  else earlier.head? ≠ some password

theorem not_mem_take_concat {count : Nat} {before : List Text} {first password : Text}
    (hsaved : password ∉ before.take count) :
    password ∉ (before ++ [first]).take count ↔
      (first = password -> count < (before ++ [first]).length) := by
  rw [List.length_append, List.length_singleton]
  by_cases hcount : count ≤ before.length
  · rw [List.take_append_of_le_length hcount]
    exact iff_of_true hsaved fun _ => Nat.lt_succ_of_le hcount
  · have hall : before.length < count := Nat.lt_of_not_le hcount
    rw [List.take_of_length_le (Nat.le_of_lt hall)] at hsaved
    rw [List.take_of_length_le (by simpa using Nat.succ_le_of_lt hall), List.mem_append, List.mem_singleton]
    constructor
    · intro hnot heq
      exact absurd (.inr heq.symm) hnot
    · intro hlast h
      rcases h with hmem | heq
      · exact hsaved hmem
      · exact absurd (hlast heq.symm) (by omega)

theorem not_mem_take_cons {count : Nat} (hcount : 1 ≤ count) {current password : Text}
    {rest : List Text} (hsaved : password ∉ rest.take count) :
    password ∉ (current :: rest).take count ↔ current ≠ password := by
  rcases Nat.exists_eq_add_of_le' hcount with ⟨n, rfl⟩
  have hrest : password ∉ rest.take n := fun hmem =>
    hsaved ((List.take_prefix_take_left (Nat.le_succ n)).subset hmem)
  rw [List.take_succ_cons, List.mem_cons, not_or, and_iff_left hrest]
  exact ne_comm

theorem not_mem_take_iff {count : Nat} (hcount : 1 ≤ count) {earlier : List Text} {password : Text}
    (hsaved : password ∉ (saved refreshes earlier).take count) :
    password ∉ earlier.take count ↔ Unsaved refreshes count earlier password := by
  cases refreshes with
  | true =>
      rcases List.eq_nil_or_concat earlier with rfl | ⟨before, first, rfl⟩
      · simp [Unsaved]
      · rw [List.concat_eq_append] at hsaved ⊢
        rw [saved, if_pos rfl, List.dropLast_concat] at hsaved
        rw [Unsaved, if_pos rfl, List.getLast?_concat, Option.some.injEq]
        exact not_mem_take_concat hsaved
  | false =>
      cases earlier with
      | nil => simp [Unsaved]
      | cons current rest =>
          rw [Unsaved, if_neg Bool.false_ne_true, List.head?_cons, ne_eq, Option.some.injEq]
          exact not_mem_take_cons hcount hsaved

/--
A password of a run differs from the last `count` before it, when the update refreshes the
loaded user, unless it is the first one while that is among them, and, when it does not,
unless it is the current one.
-/
theorem accepted_password_differs (hverify : Verifies hasher) (hcount : 1 ≤ count)
    {later earlier : List Text} {password : Text}
    (hrun : InForce hasher refreshes count userId db (later ++ password :: earlier))
    (hne : earlier ≠ []) :
    password ∉ earlier.take count.toNat ↔ Unsaved refreshes count.toNat earlier password :=
  not_mem_take_iff (by omega) (accepted_not_saved hverify hcount hrun later password earlier rfl hne)

end Runs

/-!
# The first change

A hash that is the password itself, and a run of the creation of a user and one reset of its
password.
-/

def plainHash : PasswordHash where
  hash password _ := password
  verify password hash := password = hash

theorem verifies_plainHash : Verifies plainHash :=
  fun p q _ => decide_eq_true_iff (p := p = q)

def defaultSettings : PasswordSettings where
  minLength := 6
  maxLength := 32
  requireSpecialChar := false
  historyCheckCount := 3

def emptyDb : PasswordDb where
  users := []
  history := []
  nextUser := 1
  nextHistory := 1

theorem consistent_emptyDb : Consistent emptyDb where
  distinct := List.nodup_nil
  users _ h := nomatch h
  owners _ h := nomatch h
  rows _ h := nomatch h
  order := List.Pairwise.nil

theorem inForce_reset (refreshes : Bool) {first second : Text} {db : PasswordDb}
    (h : resetPassword plainHash refreshes defaultSettings (add plainHash emptyDb first []) 1
      second [] = .ok db) : InForce plainHash refreshes 3 1 db ([] ++ second :: [first]) := by
  have hcreated : InForce plainHash refreshes 3 1 (add plainHash emptyDb first []) [first] :=
    .created consistent_emptyDb rfl
  have hperform : perform plainHash refreshes defaultSettings (add plainHash emptyDb first [])
      (.resetPassword 1 second []) = .ok db := h
  exact .performed hcreated rfl hperform

theorem second_password_differs : "letters2".toList ∉ ["letters1".toList].take 3 ↔
    Unsaved true 3 ["letters1".toList] "letters2".toList :=
  accepted_password_differs verifies_plainHash (by decide) (inForce_reset true rfl)
    (List.cons_ne_nil _ _)

def ReuseRejected (refreshes : Bool) : Prop :=
  forall hasher count userId db later password earlier, Verifies hasher -> 1 ≤ count ->
    InForce hasher refreshes count userId db (later ++ password :: earlier) -> earlier ≠ [] ->
      password ∉ earlier.take count.toNat

/-- The first reset of a password may be to the password itself. -/
theorem first_password_reused : ¬ ReuseRejected true ∧ ¬ ReuseRejected false := by
  have hsame : "letters1".toList ∈ ["letters1".toList].take 3 := by decide
  constructor
  · intro h
    exact h plainHash 3 1 _ [] _ _ verifies_plainHash (by decide) (inForce_reset true rfl)
      (List.cons_ne_nil _ _) hsame
  · intro h
    exact h plainHash 3 1 _ [] _ _ verifies_plainHash (by decide) (inForce_reset false rfl)
      (List.cons_ne_nil _ _) hsame

end Passwords
end RagService
