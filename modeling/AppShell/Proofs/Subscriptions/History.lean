/-
AppShell/Proofs/Subscriptions/History.lean

Histories of subscriptions.

A history lists attachments, ends of subscriptions and the loss of those that
nobody refers to any more, the newest first, for all tables of a shell at once.
`seats` reads the listeners that came to a table off its history alone, each
time that one came, with their subscriptions and numbers.

The invariant is `Tracks`: a table holds the seats whose subscription is active,
and an active subscription to it has its seat.  Each step keeps it, because the
number of a seat was given to no other (`eq_of_number_eq`): what a subscription
takes out is its own listener, however late it ends.  The main statement is
`live_subscriptions_tracked`.
-/
import AppShell.Proofs.Subscriptions.Attaching
import Mathlib.Data.List.Nodup

namespace AppShell

variable {α : Type}

/-! ### New tables -/

/-- A table without listeners, to which nobody subscribed, in a shell in which nothing refers to a
subscription that is still to come. -/
structure Shell.Unattended (table : ListenerTable) (sh : Shell α) : Prop where
  empty : sh.tableOf table = some .empty
  vacant : ∀ (n : SubscriptionId) (number : Nat),
    sh.subscriptions[n]? ≠ some ⟨table, number, true⟩
  unreferenced : ∀ n, sh.subscriptions.size ≤ n → Object.subscription n ∉ sh.referenced

/-! ### Histories -/

/-- What becomes of subscriptions: one is made, one is ended, or the last reference to one is
lost. -/
inductive SubscriptionStep where
  | attach (a : Attachment)
  | unsubscribe (n : SubscriptionId)
  | drop (n : SubscriptionId)
deriving DecidableEq

namespace SubscriptionStep

/-- Performs a step. -/
def perform (act : Shell.Act α) : SubscriptionStep → Shell α → Shell α
  | .attach a, sh => (sh.attach a).2
  | .unsubscribe n, sh => sh.unsubscribe n
  | .drop n, sh => sh.letGo act (.subscription n)

/-- Whether a step ends a subscription. -/
def Cancels (n : SubscriptionId) : SubscriptionStep → Prop
  | .attach _ => False
  | .unsubscribe m | .drop m => m = n

end SubscriptionStep

/-- The steps of subscriptions, the newest first. -/
abbrev SubscriptionHistory := List SubscriptionStep

/-- A listener as it came to a table: its subscription, and the number that it got there. -/
structure Seat where
  id : SubscriptionId
  number : Nat
  listener : AnyListener
deriving DecidableEq

/-- The entry of a seat in its table. -/
def Seat.entry (s : Seat) : Nat × AnyListener :=
  (s.number, s.listener)

namespace SubscriptionHistory

/-- The shell after the steps. -/
def run (act : Shell.Act α) (sh : Shell α) : SubscriptionHistory → Shell α
  | [] => sh
  | s :: past => s.perform act (run act sh past)

/-- The number of listeners attached, to whatever table. -/
def attached : SubscriptionHistory → Nat
  | [] => 0
  | .attach _ :: past => attached past + 1
  | _ :: past => attached past

/-- The listeners that came to a table, in their order, where subscriptions are numbered from
`first` on. -/
def seats (first : SubscriptionId) (table : ListenerTable) : SubscriptionHistory → List Seat
  | [] => []
  | .attach a :: past =>
    let seated := seats first table past
    if a.table = table then
      seated ++ [⟨first + attached past, seated.length + 1, a.listener⟩]
    else seated
  | _ :: past => seats first table past

variable {first : SubscriptionId} {table : ListenerTable} {past : SubscriptionHistory}

/-! ### Seats -/

/-- An attachment to a table takes the seat behind the others, under the next number. -/
theorem seats_attach (first : SubscriptionId) (a : Attachment) (past : SubscriptionHistory) :
    seats first a.table (.attach a :: past) =
      seats first a.table past ++
        [⟨first + attached past, (seats first a.table past).length + 1, a.listener⟩] :=
  if_pos rfl

/-- An attachment to another table takes no seat of this one. -/
theorem seats_attach_of_ne {a : Attachment} (h : a.table ≠ table) :
    seats first table (.attach a :: past) = seats first table past :=
  if_neg h

/-- Who has a seat after an attachment had one before or is the one attached. -/
theorem mem_seats_attach {a : Attachment} {s : Seat} :
    s ∈ seats first table (.attach a :: past) ↔
      s ∈ seats first table past ∨ a.table = table ∧
        s = ⟨first + attached past, (seats first table past).length + 1, a.listener⟩ := by
  by_cases ha : a.table = table
  · subst ha
    simp [seats_attach]
  · simp [seats_attach_of_ne ha, ha]

/-- The seats of a table, taken or not, would stand in it in order. -/
theorem ordered_seats (first : SubscriptionId) (table : ListenerTable)
    (past : SubscriptionHistory) :
    Listeners.Ordered ⟨(seats first table past).length, (seats first table past).map Seat.entry⟩ := by
  induction past with
  | nil => exact Listeners.ordered_empty
  | cons step past ih =>
    cases step with
    | attach a =>
      by_cases ha : a.table = table
      · subst ha
        rw [seats_attach, List.length_append, List.map_append]
        exact ih.insert a.listener
      · rw [seats_attach_of_ne ha]
        exact ih
    | unsubscribe n | drop n => exact ih

/-- No seat has a number beyond how many were taken. -/
theorem number_le {s : Seat} (h : s ∈ seats first table past) :
    s.number ≤ (seats first table past).length :=
  (ordered_seats first table past).issued s.entry (List.mem_map_of_mem h)

/-- Seats have their numbers in the order in which they were taken. -/
theorem numbers_increasing (first : SubscriptionId) (table : ListenerTable)
    (past : SubscriptionHistory) :
    (seats first table past).Pairwise fun s s' => s.number < s'.number := by
  have h := (ordered_seats first table past).increasing
  rwa [List.pairwise_map] at h

/-- No two seats of a table have one number. -/
theorem eq_of_number_eq {s s' : Seat} (h : s ∈ seats first table past)
    (h' : s' ∈ seats first table past) (he : s.number = s'.number) : s = s' := by
  have hnodup : ((seats first table past).map Seat.number).Nodup :=
    List.pairwise_map.2 ((numbers_increasing first table past).imp Nat.ne_of_lt)
  exact List.inj_on_of_nodup_map hnodup h h' he

/-! ### A table and its seats -/

/-- A table holds the seats of its history whose subscription is active, and there are no others
that are subscribed to it. -/
structure Tracks (first : SubscriptionId) (table : ListenerTable) (past : SubscriptionHistory)
    (sh : Shell α) : Prop where
  size : sh.subscriptions.size = first + past.attached
  holds : sh.tableOf table = some ⟨(past.seats first table).length,
    ((past.seats first table).filter fun s => sh.isActive s.id).map Seat.entry⟩
  seated : ∀ s ∈ past.seats first table,
    ∃ active, sh.subscriptions[s.id]? = some ⟨table, s.number, active⟩
  known : ∀ (n : SubscriptionId) (number : Nat),
    sh.subscriptions[n]? = some ⟨table, number, true⟩ →
      ∃ s ∈ past.seats first table, s.id = n ∧ s.number = number
  unreferenced : ∀ n, first ≤ n → Object.subscription n ∉ sh.referenced

namespace Tracks

variable {sh : Shell α}

/-- A table nobody listens to is described by the empty history. -/
theorem start (h : sh.Unattended table) : Tracks sh.subscriptions.size table [] sh where
  size := rfl
  holds := h.empty
  seated := nofun
  known n number hn := absurd hn (h.vacant n number)
  unreferenced := h.unreferenced

/-- An attachment leaves the table described by the history that it begins. -/
theorem attach (h : Tracks first table past sh) (a : Attachment) :
    Tracks first table (.attach a :: past) (sh.attach a).2 := by
  have hmade := sh.attached_attach a
  -- all seats belong to subscriptions that were there before, so none is that of the new one
  have hold : ∀ s ∈ past.seats first table, s.id ≠ sh.subscriptions.size := by
    intro s hs he
    obtain ⟨active, hsub⟩ := h.seated s hs
    exact Nat.ne_of_lt (Array.getElem?_eq_some_iff.1 hsub).1 he
  have hkept : ((past.seats first table).filter fun s => (sh.attach a).2.isActive s.id) =
      (past.seats first table).filter fun s => sh.isActive s.id := by
    refine List.filter_congr fun s hs => ?_
    rw [Shell.isActive_attach, beq_false_of_ne (hold s hs), Bool.false_or]
  refine ⟨?size, ?holds, ?seated, ?known, fun n hn => hmade.referenced ▸ h.unreferenced n hn⟩
  case size =>
    rw [hmade.subscriptions, Array.size_push, h.size]
    rfl
  case holds =>
    rw [hmade.tables, h.holds]
    by_cases ha : a.table = table
    · subst ha
      rw [if_pos rfl, seats_attach, List.filter_append, hkept, ← h.size]
      simp [Shell.isActive_attach, Listeners.insert, Seat.entry]
    · rw [if_neg ha, seats_attach_of_ne ha, hkept]
  case seated =>
    intro s hs
    rw [hmade.subscriptions, Array.getElem?_push]
    rcases mem_seats_attach.1 hs with hs | ⟨rfl, rfl⟩
    · rw [if_neg (hold s hs)]
      exact h.seated s hs
    · rw [if_pos h.size.symm, Shell.numberFor, h.holds]
      exact ⟨true, rfl⟩
  case known =>
    intro n number hn
    rw [hmade.subscriptions, Array.getElem?_push] at hn
    split at hn
    · next hnew =>
      injection hn with hn
      injection hn with htable hnumber
      rw [htable, Shell.numberFor, h.holds] at hnumber
      exact ⟨_, mem_seats_attach.2 (.inr ⟨htable, rfl⟩), h.size.symm.trans hnew.symm, hnumber⟩
    · obtain ⟨s, hs, hid, hnumber⟩ := h.known n number hn
      exact ⟨s, mem_seats_attach.2 (.inl hs), hid, hnumber⟩

/-- The number of an active subscription was given to its own seat alone. -/
theorem number_eq_iff (h : Tracks first table past sh) {m : SubscriptionId} {number : Nat}
    (hm : sh.subscriptions[m]? = some ⟨table, number, true⟩) {s : Seat}
    (hs : s ∈ past.seats first table) : s.number = number ↔ m = s.id := by
  refine ⟨fun he => ?_, fun he => ?_⟩
  · obtain ⟨seat, hseat, hid, hnumber⟩ := h.known m number hm
    rw [eq_of_number_eq hs hseat (he.trans hnumber.symm), hid]
  · obtain ⟨active, hsub⟩ := h.seated s hs
    rw [← he, hm] at hsub
    injection hsub with hsub
    injection hsub with _ hn
    exact hn.symm

/-- A subscription to another table has no seat here. -/
theorem id_ne_of_table_ne (h : Tracks first table past sh) {m : SubscriptionId}
    {table' : ListenerTable} {number : Nat}
    (hm : sh.subscriptions[m]? = some ⟨table', number, true⟩) (htable : table' ≠ table) {s : Seat}
    (hs : s ∈ past.seats first table) : m ≠ s.id := by
  rintro rfl
  obtain ⟨active, hsub⟩ := h.seated s hs
  rw [hm] at hsub
  injection hsub with hsub
  injection hsub with ht
  exact htable ht

/-- A cancelled subscription leaves its table, and changes no other. -/
theorem unsubscribe (h : Tracks first table past sh) (m : SubscriptionId) :
    Tracks first table past (sh.unsubscribe m) := by
  refine ⟨(sh.size_unsubscribe m).trans h.size, ?holds, ?seated, ?known,
    fun n hn => sh.referenced_unsubscribe m ▸ h.unreferenced n hn⟩
  case holds =>
    rcases sh.unsubscribe_cases m with he | ⟨table', number, hm, -⟩
    · rw [he]
      exact h.holds
    rw [Shell.alters_unsubscribe hm, h.holds]
    simp only [Shell.isActive_unsubscribe]
    by_cases htable : table' = table
    · -- the number that leaves the table is that of the seat of `m` alone
      subst htable
      rw [if_pos rfl]
      refine congrArg some (congrArg (Listeners.mk _) ?_)
      rw [List.filter_map, List.filter_filter]
      refine congrArg (List.map Seat.entry) (List.filter_congr fun s hs => ?_)
      refine congrArg (· && sh.isActive s.id) (Bool.eq_iff_iff.2 ?_)
      simpa [Seat.entry] using not_congr (h.number_eq_iff hm hs)
    · -- another table changes, and `m` has no seat in this one
      rw [if_neg htable]
      refine congrArg some (congrArg (Listeners.mk _) ?_)
      refine congrArg (List.map Seat.entry) (List.filter_congr fun s hs => ?_)
      rw [bne_iff_ne.2 (h.id_ne_of_table_ne hm htable hs), Bool.true_and]
  case seated =>
    intro s hs
    obtain ⟨active, hsub⟩ := h.seated s hs
    rw [Shell.subscriptions_unsubscribe, hsub]
    split
    · exact ⟨false, rfl⟩
    · exact ⟨active, rfl⟩
  case known =>
    intro n number hn
    rw [Shell.subscriptions_unsubscribe] at hn
    split at hn
    · -- the subscription that was ended is not active
      obtain ⟨sub, -, hsub⟩ := Option.map_eq_some_iff.1 hn
      injection hsub with _ _ hactive
      exact Bool.noConfusion hactive
    · exact h.known n number hn

/-- Whether or not something else refers to it, letting go of a subscription leaves the table
described by the history. -/
theorem drop (h : Tracks first table past sh) (act : Shell.Act α) (m : SubscriptionId) :
    Tracks first table past (sh.letGo act (.subscription m)) := by
  by_cases hm : Object.subscription m ∈ sh.referenced
  · rw [Shell.letGo, if_pos hm]
    exact h
  · rw [Shell.letGo_subscription act hm]
    exact h.unsubscribe m

/-- Every step leaves the table described by the history. -/
theorem step (h : Tracks first table past sh) (act : Shell.Act α) (s : SubscriptionStep) :
    Tracks first table (s :: past) (s.perform act sh) := by
  cases s with
  | attach a => exact h.attach a
  | unsubscribe n =>
    have hdone := h.unsubscribe n
    exact ⟨hdone.size, hdone.holds, hdone.seated, hdone.known, hdone.unreferenced⟩
  | drop n =>
    have hdone := h.drop act n
    exact ⟨hdone.size, hdone.holds, hdone.seated, hdone.known, hdone.unreferenced⟩

/-- Every history from a new table on. -/
theorem run (h : sh.Unattended table) (act : Shell.Act α) (past : SubscriptionHistory) :
    Tracks sh.subscriptions.size table past (past.run act sh) := by
  induction past with
  | nil => exact .start h
  | cons s past ih => exact ih.step act s

end Tracks

/-! ### Live subscriptions -/

/-- A subscription was made, and no step since then ended it. -/
def Live (first : SubscriptionId) (past : SubscriptionHistory) (n : SubscriptionId) : Prop :=
  ∃ later a earlier, past = later ++ .attach a :: earlier ∧ n = first + attached earlier ∧
    ∀ s ∈ later, ¬ s.Cancels n

/-- A subscription is live after a step when the step attached it, or when it was live and the step
did not cancel it. -/
theorem live_cons {s : SubscriptionStep} {n : SubscriptionId} :
    Live first (s :: past) n ↔
      (∃ a, s = .attach a ∧ n = first + past.attached) ∨ ¬ s.Cancels n ∧ Live first past n := by
  refine ⟨?_, ?_⟩
  · rintro ⟨later, a, earlier, he, hn, hlater⟩
    rcases later with - | ⟨s', later⟩
    · obtain ⟨rfl, rfl⟩ := List.cons.inj he
      exact .inl ⟨a, rfl, hn⟩
    · obtain ⟨rfl, rfl⟩ := List.cons.inj he
      obtain ⟨hs, hlater⟩ := List.forall_mem_cons.1 hlater
      exact .inr ⟨hs, later, a, earlier, rfl, hn, hlater⟩
  · rintro (⟨a, rfl, hn⟩ | ⟨hs, later, a, earlier, rfl, hn, hlater⟩)
    · exact ⟨[], a, past, rfl, hn, nofun⟩
    · exact ⟨s :: later, a, earlier, rfl, hn, List.forall_mem_cons.2 ⟨hs, hlater⟩⟩

/-- A longer history has attached at least as many. -/
theorem attached_le_append (later past : SubscriptionHistory) :
    past.attached ≤ (later ++ past).attached := by
  induction later with
  | nil => exact Nat.le_refl _
  | cons s later ih =>
    cases s with
    | attach a => exact Nat.le_succ_of_le ih
    | unsubscribe n | drop n => exact ih

/-- What was ended once is not live again. -/
theorem not_live_of_cancels {s : SubscriptionStep} {n : SubscriptionId} (hs : s.Cancels n)
    (hn : n < first + past.attached) (later : SubscriptionHistory) :
    ¬ Live first (later ++ s :: past) n := by
  induction later with
  | nil =>
    rw [List.nil_append, live_cons]
    rintro (⟨a, rfl, -⟩ | ⟨hnot, -⟩)
    · exact hs
    · exact hnot hs
  | cons s' later ih =>
    rw [List.cons_append, live_cons]
    rintro (⟨a, -, he⟩ | ⟨-, hlive⟩)
    · -- what is attached later gets a subscription behind all that there were
      have hle := attached_le_append (later ++ [s]) past
      rw [List.append_assoc, List.singleton_append] at hle
      rw [he] at hn
      exact Nat.not_lt.2 (Nat.add_le_add_left hle first) hn
    · exact ih hlive

variable {sh : Shell α}

/-- A step that ends a subscription does nothing else. -/
theorem run_of_cancels (h : sh.Unattended table) (act : Shell.Act α) (past : SubscriptionHistory)
    {s : SubscriptionStep} {n : SubscriptionId} (hs : s.Cancels n)
    (hn : sh.subscriptions.size ≤ n) :
    run act sh (s :: past) = (past.run act sh).unsubscribe n := by
  cases s with
  | attach a => exact hs.elim
  | unsubscribe m =>
    obtain rfl : m = n := hs
    rfl
  | drop m =>
    obtain rfl : m = n := hs
    exact Shell.letGo_subscription act ((Tracks.run h act past).unreferenced m hn)

/-- A subscription is active after a run exactly when the run's history says that it is live. -/
theorem isActive_run_iff (h : sh.Unattended table) (act : Shell.Act α)
    (past : SubscriptionHistory) {n : SubscriptionId} (hn : sh.subscriptions.size ≤ n) :
    (past.run act sh).isActive n = true ↔ past.Live sh.subscriptions.size n := by
  -- the induction is on the history: what is live after a step is what the step itself says
  induction past with
  | nil =>
    have hnone : sh.subscriptions[n]? = none := Array.getElem?_eq_none hn
    simp [run, Shell.isActive, hnone, Live]
  | cons s past ih =>
    have htracks := Tracks.run h act past
    rw [live_cons, ← ih]
    cases s with
    | attach a =>
      simp only [run, SubscriptionStep.perform, Shell.isActive_attach, htracks.size]
      simp [SubscriptionStep.Cancels]
    | unsubscribe m =>
      simp only [run, SubscriptionStep.perform, Shell.isActive_unsubscribe]
      simp [SubscriptionStep.Cancels]
    | drop m =>
      simp only [run, SubscriptionStep.perform, Shell.isActive_drop act m (htracks.unreferenced n hn)]
      simp [SubscriptionStep.Cancels]

/-- The listeners of a table that was new are those whose subscription is active, in the order in
which they came, and their numbers grow also as words of 64 bits.  A subscription is active from
when it is made until it is ended for the first time, and no longer; what ends it takes no other
listener out, and changes nothing when it is done again. -/
theorem live_subscriptions_tracked (act : Shell.Act α) (h : sh.Unattended table)
    (past : SubscriptionHistory)
    (hcount : (past.seats sh.subscriptions.size table).length < UInt64.size) :
    (∀ a, ((past.run act sh).attach a).1 = sh.subscriptions.size + past.attached) ∧
    (∃ t, (past.run act sh).tableOf table = some t ∧
      (t.entries.map fun e => UInt64.ofNat e.1).Pairwise (· < ·) ∧
      t.snapshot = ((past.seats sh.subscriptions.size table).filter fun s =>
        (past.run act sh).isActive s.id).map Seat.listener) ∧
    (∀ n, sh.subscriptions.size ≤ n →
      ((past.run act sh).isActive n = true ↔ past.Live sh.subscriptions.size n)) ∧
    (∀ (later : SubscriptionHistory) s (earlier : SubscriptionHistory) n,
      past = later ++ s :: earlier → s.Cancels n → sh.subscriptions.size ≤ n →
        n < sh.subscriptions.size + earlier.attached → (past.run act sh).isActive n = false) ∧
    ∀ s n, s.Cancels n → sh.subscriptions.size ≤ n →
      (∀ m, n ≠ m → (run act sh (s :: past)).isActive m = (past.run act sh).isActive m) ∧
      (∃ t, (run act sh (s :: past)).tableOf table = some t ∧
        t.snapshot = ((past.seats sh.subscriptions.size table).filter fun s =>
          n != s.id && (past.run act sh).isActive s.id).map Seat.listener) ∧
      ∀ s', s'.Cancels n → run act sh (s' :: s :: past) = run act sh (s :: past) := by
  have htracks := Tracks.run h act past
  refine ⟨fun a => ?handed, ⟨_, htracks.holds, ?increasing, List.map_map⟩,
    fun n => isActive_run_iff h act past, ?ended, fun s n hs hn => ?cancelled⟩
  case handed => rw [((past.run act sh).attached_attach a).id, htracks.size]
  case increasing =>
    rw [List.map_map, List.pairwise_map]
    -- the numbers are at most as many as the seats, so that they fit into a word
    have hfits : ∀ s ∈ past.seats sh.subscriptions.size table, s.number < UInt64.size :=
      fun s hs => Nat.lt_of_le_of_lt (number_le hs) hcount
    refine ((numbers_increasing _ _ past).filter _).imp_of_mem fun hs hs' hlt => ?_
    exact (UInt64.ofNat_lt_iff_lt (hfits _ (List.mem_filter.1 hs).1)
      (hfits _ (List.mem_filter.1 hs').1)).2 hlt
  case ended =>
    intro later s earlier n hpast hs hn hmade
    rw [← Bool.not_eq_true, isActive_run_iff h act past hn, hpast]
    exact not_live_of_cancels hs hmade later
  case cancelled =>
    have hended : (run act sh (s :: past)).isActive n = false := by
      rw [run_of_cancels h act past hs hn, Shell.isActive_unsubscribe, bne_self_eq_false,
        Bool.false_and]
    refine ⟨fun m hm => ?_, ?_, fun s' hs' => ?_⟩
    · rw [run_of_cancels h act past hs hn, Shell.isActive_unsubscribe, bne_iff_ne.2 hm,
        Bool.true_and]
    · rw [run_of_cancels h act past hs hn]
      refine ⟨_, (htracks.unsubscribe n).holds, ?_⟩
      simp only [Shell.isActive_unsubscribe]
      exact List.map_map
    · rw [run_of_cancels h act (s :: past) hs' hn, Shell.unsubscribe_of_not_active hended]

/-- A shell with one queue. -/
def oneQueue : Shell Unit :=
  { Shell.empty with queues := #[.empty] }

/-- A listener of the queue. -/
def badge : QueueListener :=
  ⟨"badge", false, 0⟩

/-- The listener comes twice, and its first subscription is ended twice and dropped. -/
def comesTwice : SubscriptionHistory :=
  [.drop 0, .unsubscribe 0, .unsubscribe 0, .attach (.queue 0 badge), .attach (.queue 0 badge)]

theorem unattended_oneQueue : oneQueue.Unattended (.queue 0) where
  empty := rfl
  vacant := by simp [oneQueue, Shell.empty]
  unreferenced := by simp [oneQueue, Shell.empty, Shell.referenced]

/-- A listener that came twice stays once when one of its subscriptions ends. -/
theorem live_subscriptions_tracked_twice :
    oneQueue.Unattended (.queue 0) ∧ (comesTwice.seats 0 (.queue 0)).length < UInt64.size ∧
      (∃ t, (comesTwice.run (fun _ sh => sh) oneQueue).tableOf (.queue 0) = some t ∧
        t.snapshot = [.queue badge]) ∧
      (comesTwice.run (fun _ sh => sh) oneQueue).isActive 0 = false ∧
      (comesTwice.run (fun _ sh => sh) oneQueue).isActive 1 = true := by
  obtain ⟨-, ⟨t, ht, -, hsnapshot⟩, -, hended, -⟩ :=
    live_subscriptions_tracked (fun _ sh => sh) unattended_oneQueue comesTwice (by decide)
  refine ⟨unattended_oneQueue, by decide, ⟨t, ht, hsnapshot.trans (by decide)⟩, ?_, by decide⟩
  exact hended [.drop 0, .unsubscribe 0] (.unsubscribe 0) _ 0 rfl rfl (by decide) (by decide)

end SubscriptionHistory

end AppShell
