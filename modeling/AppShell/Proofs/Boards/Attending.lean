/-
AppShell/Proofs/Boards/Attending.lean

What every operation keeps while subscribers only record.

`Attended` says that everybody was told what was noted while they listened
(`Recorded`), and that a registration that was not released still has its entry
(`Rooted`), so that its first release takes one away.  Hooks and updates may operate
on the boards themselves while they have their turns, so that an operation starts
again from what they leave: the handles and the boards that were there before.

The main statement is `yields_recording`.
-/
import AppShell.Proofs.Boards.Holdings
import AppShell.Proofs.Boards.Moves

namespace AppShell

variable {α : Type} {b : Board} {q : QueueId} {p : PanelId} {sh sh' : Shell α}

/-! ### What holds at every station -/

/-- The queues of the handles, in their order. -/
def Shell.handleQueues (sh : Shell α) : List QueueId :=
  sh.handles.toList.map Handle.queue

/-- Everybody was told what they are owed, registrations have their entries, and the handles that
were there at some point are still there, each for its queue. -/
structure Attended (start : Shell α) (i : List QueueId) (past : List BoardMove) (sh : Shell α) :
    Prop extends Recorded start past sh, Rooted past sh where
  handles : i <+: sh.handleQueues

namespace Attended

open Shell (Touches)

variable {start : Shell α} {i j : List QueueId} {past past' : List BoardMove}

/-- What holds at a station may be taken as the start for the handles that are there by then. -/
theorem reindex (h : Attended start i past sh) : Attended start sh.handleQueues past sh :=
  ⟨h.toRecorded, h.toRooted, List.prefix_refl _⟩

/-- What holds later, counted from a station on, holds counted from before that station. -/
theorem of_earlier (h : Attended start i past sh) (h' : Attended start sh.handleQueues past' sh') :
    Attended start i past' sh' :=
  ⟨h'.toRecorded, h'.toRooted, h.handles.trans h'.handles⟩

/-- What leaves handles, registrations and numbers alone. -/
theorem held (h : Attended start i past sh) (hs : Shell.SameHoldings sh sh')
    (hrecorded : Recorded start past' sh') (hpast : ∀ r, .released r ∈ past' ↔ .released r ∈ past) :
    Attended start i past' sh' := by
  refine ⟨hrecorded, h.toRooted.of_same hs.registrations hs.numbers hpast, ?_⟩
  rw [Shell.handleQueues, hs.handles]
  exact h.handles

/-- A step beside the boards leaves everybody attended. -/
theorem aside (h : Attended start i past sh) (hs : Shell.SameBoards sh sh') :
    Attended start i past sh' := by
  refine h.held ⟨hs.handles, hs.registrations, fun p => ?_⟩ (h.toRecorded.quiet hs.touches)
    fun _ => .rfl
  rw [Shell.numbersOf, Shell.numbersOf, hs.panels]

/-- A change that is posted, and what is settled after it. -/
theorem run_post {f g : Shell α → Shell α} (h : Recorded start past sh) (act : Shell.Act α)
    (hf : Touches (some b) sh (f sh)) (hg : Touches none ((f sh).told b) (g ((f sh).told b)))
    (hroot : Rooted past (g ((f sh).told b))) (hhandles : i <+: (g ((f sh).told b)).handleQueues) :
    Attended start i
      (((Deed.post b f fun _ => .done g).run (Shell.hush act) sh).changeOf b ++ past)
      ((Deed.post b f fun _ => .done g).run (Shell.hush act) sh) := by
  have hrun : (Deed.post b f fun _ => .done g).run (Shell.hush act) sh = g ((f sh).told b) :=
    congrArg g (Shell.post_hush (h.seated.of_sameSeats hf.toSameSeats) act b)
  have hrecorded := (h.told hf).quiet hg
  rw [hrun]
  -- what is settled shows nowhere, so that the display in the end is the one that was posted
  rw [← hg.changeOf nofun] at hrecorded
  exact ⟨hrecorded, hroot.changed b _, hhandles⟩

variable {act : Shell.Act α} {tr : Answers BoardMove α} {s : BoardStep α}

/-! ### Operations -/

/-- What is attended is so at all stations of an operation, while subscribers only record. -/
def KeptBy (start : Shell α) (act : Shell.Act α) (tr : Answers BoardMove α) (i : List QueueId)
    (past : List BoardMove) (sh : Shell α) (s : BoardStep α) : Prop :=
  Yields (Attended start) i past (s.stationsOf (Shell.hush act) (Shell.hushAnswers tr) past sh)
    (s.perform (Shell.hush act) sh)

/-- An operation that changes a board notes that change and what it does besides. -/
theorem moves_of_changes (hs : s.changes? act sh = some b) :
    s.moves act sh = ((s.deed sh).run act sh).changeOf b ++ s.besides sh := by
  rw [BoardStep.moves, hs, s.perform_eq]
  rfl

/-- An operation that changes no board notes what it does besides. -/
theorem moves_of_none (hs : s.changes? act sh = none) : s.moves act sh = s.besides sh := by
  rw [BoardStep.moves, hs]
  rfl

/-- An operation in which no callback has a turn. -/
theorem keptBy_landing (h : Attended start i past sh)
    (hturns : (s.deed sh).turns (Shell.hush act) (Shell.hushAnswers tr) past sh = [])
    (hfinal : Attended start i (s.moves (Shell.hush act) sh ++ past)
      ((s.deed sh).run (Shell.hush act) sh)) :
    KeptBy start act tr i past sh s := by
  rw [KeptBy, BoardStep.stationsOf, hturns, s.perform_eq]
  exact (Yields.refl h).noted _ hfinal

/-- An operation that comes to nothing. -/
theorem keptBy_nothing (h : Attended start i past sh) (hdeed : s.deed sh = .nothing)
    (hmoves : s.moves (Shell.hush act) sh = []) :
    KeptBy start act tr i past sh s := by
  refine keptBy_landing h (by rw [hdeed]; rfl) ?_
  rw [hmoves, hdeed]
  exact h

/-- An operation on a panel that is not there: nobody listens to it. -/
theorem keptBy_gone (h : Attended start i past sh) (hp : sh.panels[p]? = none)
    (hdeed : s.deed sh = .nothing) (hchanges : s.changes? (Shell.hush act) sh = some (.panel p))
    (hbesides : s.besides sh = []) :
    KeptBy start act tr i past sh s := by
  refine h.keptBy_nothing hdeed ?_
  rw [moves_of_changes hchanges, hdeed, hbesides, List.append_nil]
  exact Shell.changeOf_of_none hp

/-- An operation in which a callback has a turn before anything is changed. -/
theorem keptBy_turn {f : Shell α → Shell α} {c : CallbackId} {rest : Shell α → Deed α}
    (hact : Keeps (Attended start) (Shell.hush act) (Shell.hushAnswers tr))
    (h : Attended start j past (f sh)) (hdeed : s.deed sh = .turn f c rest)
    (hturns : ∀ past sh, (rest sh).turns (Shell.hush act) (Shell.hushAnswers tr) past sh = [])
    (hfinal : ∀ past sh', Shell.hush act (.turn c) (f sh) = sh' →
      (s.deed sh).run (Shell.hush act) sh = (rest sh').run (Shell.hush act) sh' →
      Attended start j past sh' →
      Attended start i (s.moves (Shell.hush act) sh ++ past)
        ((rest sh').run (Shell.hush act) sh')) :
    KeptBy start act tr i past sh s := by
  -- the turn is noted first, and may be seen from another moment than the operation
  have hturn := hact (.turn c) j past (f sh) h
  have hrun : (s.deed sh).run (Shell.hush act) sh =
      (rest (Shell.hush act (.turn c) (f sh))).run (Shell.hush act)
        (Shell.hush act (.turn c) (f sh)) := by
    rw [hdeed]
    rfl
  have hduring : (s.deed sh).turns (Shell.hush act) (Shell.hushAnswers tr) past sh =
      Shell.hushAnswers tr (.turn c) past (f sh) := by
    rw [hdeed]
    exact (congrArg (· ++ _) (hturns _ _)).trans (List.nil_append _)
  rw [KeptBy, BoardStep.stationsOf, s.perform_eq, hduring, hrun]
  exact hturn.noted _ (hfinal _ _ rfl hrun hturn.last)

/-- Adding a message, with or without a handle, keeps everybody attended. -/
theorem keptBy_add {m : MessageDefinition} {g : Shell α → Shell α}
    (h : Attended start i past sh) (hdeed : s.deed sh = .add q m fun _ => .done g)
    (hchanges : s.changes? (Shell.hush act) sh = some (.queue q)) (hbesides : s.besides sh = [])
    (hg : ∀ sh, Touches none sh (g sh)) (hroot : ∀ sh, Rooted past sh → Rooted past (g sh))
    (hhandles : ∀ sh, sh.handleQueues <+: (g sh).handleQueues) :
    KeptBy start act tr i past sh s := by
  refine keptBy_landing h (by rw [hdeed]; rfl) ?_
  rw [moves_of_changes hchanges, hbesides, List.append_nil, hdeed]
  -- a handle is opened only when everybody was told
  have hkept := hhandles (Shell.told (.queue q) (sh.modifyQueue q fun qu => (qu.pushFront m).2))
  refine run_post h.toRecorded act (.modifyQueue sh fun _ => rfl) (hg _) (hroot _ ?_)
    (h.handles.trans hkept)
  exact h.toRooted.of_same rfl (fun _ => rfl) fun _ => .rfl

/-- A message is taken out if this is answered so. -/
theorem run_remove (h : Attended start i past sh) (act : Shell.Act α) (q : QueueId) (id : String) :
    Attended start i
      ((if (Shell.removeMessage (Shell.hush act) q id sh).1 then
          ((Deed.remove q id sh).run (Shell.hush act) sh).changeOf (.queue q)
        else []) ++ past)
      ((Deed.remove q id sh).run (Shell.hush act) sh) := by
  by_cases hid : id ∈ sh.messageIds q
  · rw [Shell.removeMessage, if_pos hid, if_pos rfl, Deed.remove, if_pos hid]
    refine run_post h.toRecorded act (.modifyQueue sh fun _ => rfl) (.refl _) ?_ h.handles
    exact h.toRooted.of_same rfl (fun _ => rfl) fun _ => .rfl
  · rw [Shell.removeMessage, if_neg hid, if_neg Bool.false_ne_true, Deed.remove, if_neg hid]
    exact h

/-- A removal keeps everybody attended, also one that finds nothing. -/
theorem keptBy_remove {id : String} (h : Attended start i past sh)
    (hdeed : s.deed sh = .remove q id sh) (hbesides : s.besides sh = [])
    (hchanges : s.changes? (Shell.hush act) sh =
      if (Shell.removeMessage (Shell.hush act) q id sh).1 then some (.queue q) else none) :
    KeptBy start act tr i past sh s := by
  refine keptBy_landing h (by rw [hdeed, Deed.turns_remove]) ?_
  have hfinal := h.run_remove act q id
  split at hchanges
  · next hremoved =>
    rw [if_pos hremoved] at hfinal
    rw [moves_of_changes hchanges, hbesides, List.append_nil, hdeed]
    exact hfinal
  · next hremoved =>
    rw [if_neg hremoved] at hfinal
    rw [moves_of_none hchanges, hbesides, hdeed]
    exact hfinal

/-- A push through a handle that is there. -/
theorem run_push (h : Attended start i past sh) (act : Shell.Act α) {k : HandleId} {handle : Handle}
    (hk : sh.handles[k]? = some handle) (m : MessageDefinition) :
    Attended start i
      (((Deed.push k m sh).run (Shell.hush act) sh).changeOf (.queue handle.queue) ++ past)
      ((Deed.push k m sh).run (Shell.hush act) sh) := by
  have hpushed : (sh.pushed k handle m).handleQueues = sh.handleQueues :=
    Shell.map_handles_pushed sh k handle m fun _ => rfl
  simp only [Deed.push, hk]
  refine run_post h.toRecorded act (.pushed sh k handle m) (.refl _) ?_ ?_
  · exact h.toRooted.of_same rfl (fun _ => rfl) fun _ => .rfl
  · exact hpushed ▸ h.handles

/-- A failure pushed through a handle keeps everybody attended. -/
theorem keptBy_notifyHandle (h : Attended start i past sh) (k : HandleId) (failure : Failure)
    (lead : Option String) :
    KeptBy start act tr i past sh (.notifyHandle k failure lead) := by
  rcases hk : sh.handles[k]? with - | handle
  · refine h.keptBy_nothing (by simp only [BoardStep.deed, Deed.push, hk]) (moves_of_none ?_)
    rw [BoardStep.changes?, hk]
    rfl
  · refine keptBy_landing h (Deed.turns_push _ _ _ k _ sh sh) ?_
    rw [moves_of_changes (b := .queue handle.queue) (by rw [BoardStep.changes?, hk]; rfl)]
    exact (List.append_nil _).symm ▸ h.run_push act hk _

/-- An update through a handle keeps everybody attended at each station of its updater. -/
theorem keptBy_update (hact : Keeps (Attended start) (Shell.hush act) (Shell.hushAnswers tr))
    (h : Attended start i past sh) (k : HandleId) (u : Updater MessageDefinition α) :
    KeptBy start act tr i past sh (.update k u) := by
  rcases hk : sh.handles[k]? with - | handle
  · refine h.keptBy_nothing (by simp only [BoardStep.deed, Deed.update, hk]) (moves_of_none ?_)
    rw [BoardStep.changes?, hk]
    rfl
  · have hdeed : (BoardStep.update k u).deed sh =
        .turn id u.turn fun sh => .push k (u.value handle.lastPushed sh) sh := by
      simp only [BoardStep.deed, Deed.update, hk]
    refine keptBy_turn hact h.reindex hdeed (fun past sh => Deed.turns_push _ _ past k _ sh sh) ?_
    intro past' sh' _ hrun h'
    -- the handle is still there after the turn, for the same queue
    obtain ⟨handle', hk', hqueue⟩ := Shell.exists_of_prefix h'.handles hk
    have hchanges : (BoardStep.update k u).changes? (Shell.hush act) sh =
        some (.queue handle'.queue) := by
      rw [BoardStep.changes?, hk, hqueue]
      rfl
    rw [moves_of_changes hchanges, hrun]
    exact h.of_earlier ((List.append_nil _).symm ▸ h'.run_push act hk' _)

/-- What is noted of a dismissal, and the shell after it, follow from what its hook leaves. -/
theorem run_dismissed {id : String} {m : MessageDefinition} (hm : sh.message? q id = some m)
    (h' : Attended start i past' (Shell.hooked (Shell.hush act) id m sh).2) :
    Attended start i
      ((BoardStep.dismiss q id).moves (Shell.hush act) sh ++ past')
      ((BoardStep.dismiss q id).perform (Shell.hush act) sh) := by
  have hdismiss := Shell.dismissMessage_eq hm (Shell.hush act)
  have hremove := h'.run_remove act q id
  rw [BoardStep.run_remove] at hremove
  have hchanges : (BoardStep.dismiss q id).changes? (Shell.hush act) sh =
      if (Shell.dismissMessage (Shell.hush act) q id sh).1 then some (.queue q) else none := rfl
  have hperform : (BoardStep.dismiss q id).perform (Shell.hush act) sh =
      (Shell.dismissMessage (Shell.hush act) q id sh).2 := rfl
  rw [BoardStep.moves, hchanges, hperform, hdismiss]
  by_cases hgoes : (m.dismissible && !(Shell.hooked (Shell.hush act) id m sh).1) = true
  · rw [if_pos hgoes]
    -- the hook may have taken the message out itself
    split at hremove
    · next hremoved =>
      rw [if_pos hremoved]
      exact (List.append_nil _).symm ▸ hremove
    · next hremoved =>
      rw [if_neg hremoved]
      exact hremove
  · rw [if_neg hgoes, if_neg Bool.false_ne_true]
    exact h'

/-- A dismissal keeps everybody attended at each station of its hook. -/
theorem keptBy_dismiss (hact : Keeps (Attended start) (Shell.hush act) (Shell.hushAnswers tr))
    (h : Attended start i past sh) (q : QueueId) (id : String) :
    KeptBy start act tr i past sh (.dismiss q id) := by
  rcases hm : sh.message? q id with - | m
  · refine h.keptBy_nothing (by simp only [BoardStep.deed, Deed.dismiss, hm]) (moves_of_none ?_)
    rw [BoardStep.changes?, Shell.dismissMessage_of_none hm]
    rfl
  have hrest : ∀ (prevented : Bool) past (now sh' : Shell α),
      (if m.dismissible && !prevented then Deed.remove q id now else .nothing).turns
        (Shell.hush act) (Shell.hushAnswers tr) past sh' = [] := fun prevented past now sh' => by
    split
    · exact Deed.turns_remove _ _ past q id now sh'
    · rfl
  have hdeed : (BoardStep.dismiss q id).deed sh = .hook id m sh fun prevented sh =>
      if m.dismissible && !prevented then .remove q id sh else .nothing := by
    simp only [BoardStep.deed, Deed.dismiss, hm]
  rcases Deed.hook_cases id m sh with ⟨hhook, hhooked⟩ | ⟨f, c, prevented, hhook, hhooked, hf⟩
  · -- there is no hook to wait for
    refine keptBy_landing h (by rw [hdeed, hhook, hrest]) ?_
    rw [← BoardStep.perform_eq]
    exact run_dismissed hm (by rw [hhooked]; exact h)
  · rw [hhook] at hdeed
    refine keptBy_turn hact (h.reindex.aside hf) hdeed (fun past sh => hrest prevented past sh sh) ?_
    rintro past' sh' hturn hrun h'
    rw [← hrun, ← BoardStep.perform_eq]
    refine h.of_earlier (run_dismissed hm ?_)
    rw [hhooked, hturn]
    exact h'

/-- A registration keeps everybody attended: its entry is there before anybody is told. -/
theorem keptBy_register (h : Attended start i past sh) (p : PanelId) (content : Option String) :
    KeptBy start act tr i past sh (.register p content) := by
  refine keptBy_landing h rfl ?_
  rw [moves_of_changes (b := .panel p) rfl]
  refine (List.append_nil _).symm ▸ run_post h.toRecorded act (.modifyPanel sh fun _ _ => rfl)
    (.of_same rfl rfl rfl rfl) ?_ h.handles
  refine h.toRooted.register (fun ns hns => ?_) rfl fun p' => ?_
  · obtain ⟨pa, hpa, rfl⟩ := Option.map_eq_some_iff.1 hns
    rw [hpa]
    rfl
  · exact sh.numbersOf_register p content p'

/-- A registration is released whose panel is gone. -/
theorem markReleased {r : RegistrationId} {reg : Registration} (h : Attended start i past sh)
    (hr : sh.registrations[r]? = some reg) :
    Attended start i (.released r :: past) (sh.markReleased r) :=
  ⟨(h.toRecorded.released r).quiet (.of_same rfl rfl rfl rfl),
    h.toRooted.release hr rfl fun _ ns hns => ⟨ns, hns, rfl, fun _ hn _ => hn⟩, h.handles⟩

/-- The first release of a registration whose panel is still there. -/
theorem run_release {r : RegistrationId} {reg : Registration} (h : Attended start i past sh)
    (act : Shell.Act α) (hr : sh.registrations[r]? = some reg) (hreleased : reg.released = false)
    (halive : sh.panelAlive reg.panel = true) :
    Attended start i
      (((Deed.release r sh).run (Shell.hush act) sh).changeOf (.panel reg.panel) ++
        .released r :: past)
      ((Deed.release r sh).run (Shell.hush act) sh) := by
  rcases hpa : sh.panels[reg.panel]? with - | pa
  · have hdeed : Deed.release r sh = .done fun sh => sh.markReleased r := by
      simp only [Deed.release, hr, hreleased, hpa, Bool.false_eq_true, if_false]
    have hgone : (sh.markReleased r).panels[reg.panel]? = none := hpa
    rw [hdeed, Deed.run, Shell.changeOf_of_none hgone]
    exact h.markReleased hr
  · -- the entry is still there, so that its release is posted
    have hnumbers : sh.numbersOf reg.panel = some pa.numbers := by rw [Shell.numbersOf, hpa]; rfl
    have hregistered : pa.registered reg.number = true :=
      Panel.registered_iff.2 ((h.toRooted.entry hr hnumbers).2 hreleased)
    have hdeed : Deed.release r sh = .post (.panel reg.panel)
        (fun sh => ((sh.markReleased r).hold (.panel reg.panel)).modifyPanel reg.panel fun pa =>
          pa.release reg.number) fun _ => .done Shell.unhold := by
      simp only [Deed.release, hr, hreleased, hpa, halive, hregistered, Bool.and_self,
        Bool.false_eq_true, if_false, if_true]
    have hheld : Touches none sh ((sh.markReleased r).hold (.panel reg.panel)) :=
      .of_same rfl rfl rfl rfl
    have hlet : ∀ sh : Shell α, Touches none sh sh.unhold := fun _ => .of_same rfl rfl rfl rfl
    have hroot : Rooted (.released r :: past)
        (((sh.markReleased r).hold (.panel reg.panel)).modifyPanel reg.panel fun pa =>
          pa.release reg.number) :=
      h.toRooted.release hr rfl fun _ _ hns => Shell.exists_numbersOf_release hns
    rw [hdeed]
    refine run_post (h.toRecorded.released r) act (hheld.trans (.modifyPanel _ fun _ _ => rfl))
      (hlet _) (hroot.of_same rfl (fun _ => rfl) fun _ => .rfl) ?_
    rw [Shell.handleQueues]
    exact h.handles

/-- The entry of a registration is taken away at its first release, and this is posted if the panel
is still there. -/
theorem keptBy_release {r : RegistrationId} (h : Attended start i past sh)
    (hdeed : s.deed sh = .release r sh) (hbesides : s.besides sh = sh.releaseOf r)
    (hchanges : s.changes? (Shell.hush act) sh = sh.releases? r) :
    KeptBy start act tr i past sh s := by
  refine keptBy_landing h (by rw [hdeed, Deed.turns_release]) ?_
  rcases hr : sh.registrations[r]? with - | reg
  · -- there is nothing to release
    have hsize : ¬r < sh.registrations.size := Nat.not_lt.2 (Array.getElem?_eq_none_iff.1 hr)
    rw [moves_of_none (by rw [hchanges, Shell.releases?, hr]; rfl), hbesides, Shell.releaseOf,
      if_neg hsize, hdeed, Deed.release, hr]
    exact h
  have hsize : r < sh.registrations.size := (Array.getElem?_eq_some_iff.1 hr).1
  have hlast : s.besides sh = [.released r] := by rw [hbesides, Shell.releaseOf, if_pos hsize]
  rw [Shell.releases?, hr, Option.filter_some] at hchanges
  rcases hreleased : reg.released with - | -
  · rcases halive : sh.panelAlive reg.panel with - | -
    · -- the panel is gone, and nobody is told
      have hdone : (Deed.release r sh).run (Shell.hush act) sh = sh.markReleased r := by
        simp only [Deed.release, hr, hreleased, halive, Bool.false_and, Bool.false_eq_true, if_false]
        split <;> rfl
      rw [hreleased, halive] at hchanges
      rw [moves_of_none hchanges, hlast, hdeed, hdone]
      exact h.markReleased hr
    · rw [hreleased, halive] at hchanges
      rw [moves_of_changes hchanges, hlast, hdeed, List.append_assoc]
      exact h.run_release act hr hreleased halive
  · -- it was released before
    rw [hreleased] at hchanges
    rw [moves_of_none hchanges, hlast, hdeed, Deed.release, hr]
    simp only [hreleased, if_true]
    exact ⟨h.toRecorded.released r, h.toRooted.again hr hreleased, h.handles⟩

/-- A new subscriber is owed nothing yet. -/
theorem keptBy_subscribe (h : Attended start i past sh) (b : Board) :
    KeptBy start act tr i past sh (.subscribe b) := by
  refine keptBy_landing h rfl ?_
  rw [moves_of_none rfl]
  refine h.held (Shell.sameHoldings_subscribe b sh) (h.toRecorded.subscribe b) fun r => ?_
  exact List.mem_cons.trans (or_iff_right nofun)

/-- Who has given a subscription up is owed nothing any more. -/
theorem keptBy_unsubscribe (h : Attended start i past sh) (n : SubscriptionId) :
    KeptBy start act tr i past sh (.unsubscribe n) := by
  refine keptBy_landing h rfl ?_
  rw [moves_of_none rfl]
  refine h.held (sh.sameHoldings_unsubscribe n) (h.toRecorded.unsubscribe n) fun r => ?_
  exact List.mem_cons.trans (or_iff_right nofun)

/-- A set lands if the entry that was visible is still there after its turn. -/
theorem setLands_eq {u : Updater (Option String) α} {pa pa' : Panel} (hpa : sh.panels[p]? = some pa)
    (hpa' : (act (.turn u.turn) sh).panels[p]? = some pa') (content : Option String) :
    sh.setLands act p u = (pa'.setEntry pa.visibleOwner content).isSome := by
  rw [Shell.setLands, hpa, Option.bind_some, hpa']
  rcases pa.visibleOwner with - | number
  · rfl
  · show pa'.registered number = _
    rw [Panel.setEntry]
    split
    · next hthere => exact hthere
    · next hgone => exact Bool.eq_false_iff.2 hgone

/-- Setting a panel's content keeps everybody attended at each station of the updater. -/
theorem keptBy_set (hact : Keeps (Attended start) (Shell.hush act) (Shell.hushAnswers tr))
    (h : Attended start i past sh) (p : PanelId) (u : Updater (Option String) α) :
    KeptBy start act tr i past sh (.set p u) := by
  rcases hpa : sh.panels[p]? with - | pa
  · refine h.keptBy_gone hpa (by simp only [BoardStep.deed, Deed.set, hpa]) ?_ rfl
    rw [BoardStep.changes?, Shell.setLands, hpa]
    rfl
  have hdeed : (BoardStep.set p u).deed sh = .turn id u.turn fun sh =>
      .landing p pa.visibleOwner (u.value pa.visible sh) sh := by
    rw [BoardStep.deed, Deed.set_eq hpa]
  refine keptBy_turn hact h.reindex hdeed
    (fun past sh => Deed.turns_landing _ _ past p _ _ sh sh) ?_
  rintro past' sh' hturn hrun h'
  rw [id] at hturn
  -- the panel is still there after the turn
  obtain ⟨pa', hpa'⟩ : ∃ pa', sh'.panels[p]? = some pa' := by
    have hsame := (h'.boards (.panel p)).trans (h.boards (.panel p)).symm
    simp only [Shell.audience, Option.isSome_map, hpa] at hsame
    exact Option.isSome_iff_exists.1 hsame
  -- what has landed is judged by the panel that the turn left
  have hlands := setLands_eq hpa (hturn ▸ hpa') (u.value pa.visible sh')
  rw [Deed.landing, hpa', Option.bind_some] at hrun ⊢
  rcases hset : pa'.setEntry pa.visibleOwner (u.value pa.visible sh') with - | changed
  · have hnone : (BoardStep.set p u).changes? (Shell.hush act) sh = none := by
      rw [BoardStep.changes?, hlands, hset]
      rfl
    rw [moves_of_none hnone]
    exact h.of_earlier h'
  · have hchanged : (BoardStep.set p u).changes? (Shell.hush act) sh = some (.panel p) := by
      rw [BoardStep.changes?, hlands, hset]
      rfl
    rw [hset] at hrun
    rw [moves_of_changes hchanged, hrun]
    refine h.of_earlier ((List.append_nil _).symm ▸
      run_post h'.toRecorded act (.modifyPanel sh' fun now hnow => ?_) (.refl _) ?_ h'.handles)
    · obtain rfl := Option.some.inj (hpa'.symm.trans hnow)
      exact Panel.listeners_setEntry hset
    · refine h'.toRooted.of_same rfl (Shell.numbersOf_modifyPanel_of_same fun now hnow => ?_)
        fun _ => .rfl
      obtain rfl := Option.some.inj (hpa'.symm.trans hnow)
      exact Panel.numbers_setEntry hset

/-- Opening or closing a panel keeps everybody attended at each station of the updater. -/
theorem keptBy_setOpened (hact : Keeps (Attended start) (Shell.hush act) (Shell.hushAnswers tr))
    (h : Attended start i past sh) (p : PanelId) (u : Updater Bool α) :
    KeptBy start act tr i past sh (.setOpened p u) := by
  rcases hpa : sh.panels[p]? with - | pa
  · exact h.keptBy_gone hpa (by simp only [BoardStep.deed, Deed.setOpened, hpa]) rfl rfl
  have hdeed : (BoardStep.setOpened p u).deed sh = .turn id u.turn fun sh =>
      .post (.panel p) (fun sh' => sh'.modifyPanel p fun pa' => pa'.setOpened (u.value pa.opened sh))
        fun _ => .nothing := by
    simp only [BoardStep.deed, Deed.setOpened, hpa]
  refine keptBy_turn hact h.reindex hdeed (fun _ _ => rfl) ?_
  rintro past' sh' - hrun h'
  rw [moves_of_changes rfl, hrun]
  refine h.of_earlier ((List.append_nil _).symm ▸
    run_post h'.toRecorded act (.modifyPanel sh' fun _ _ => rfl) (.refl _) ?_ h'.handles)
  exact h'.toRooted.of_same rfl (Shell.numbersOf_modifyPanel_of_same fun _ _ => rfl) fun _ => .rfl

/-- Clearing a handle is removing its message. -/
theorem keptBy_clear (h : Attended start i past sh) (k : HandleId) :
    KeptBy start act tr i past sh (.clear k) := by
  rcases hk : sh.handles[k]? with - | handle
  · refine h.keptBy_nothing (by simp only [BoardStep.deed, hk]) (moves_of_none ?_)
    simp only [BoardStep.changes?, Shell.clearHandle, hk, Bool.false_eq_true, if_false]
  · have hdeed : (BoardStep.clear k).deed sh = .remove handle.queue handle.id sh := by
      simp only [BoardStep.deed, hk]
    refine h.keptBy_remove hdeed rfl ?_
    simp only [BoardStep.changes?, Shell.clearHandle, hk, Option.map_some]

end Attended

/-- Every operation keeps that everybody was told what they are owed. -/
theorem yields_recording {start : Shell α} (s : {s : BoardStep α // s.Apart}) (act : Shell.Act α)
    (tr : Answers BoardMove α) (hact : Keeps (Attended start) act tr) (i : List QueueId)
    (past : List BoardMove) (sh : Shell α) (h : Attended start i past sh) :
    Yields (Attended start) i past ((BoardStep.recording α).stations s act tr past sh)
      ((BoardStep.recording α).perform s act sh) := by
  -- the subscribers only record, so that the callbacks that are left keep what they kept
  have hhush := Shell.keeps_hush hact
  obtain ⟨s, hs⟩ := s
  cases s with
  | addOnce q m | notify q failure lead =>
    exact h.keptBy_add rfl rfl rfl (fun _ => .refl _) (fun _ h => h) fun _ => List.prefix_refl _
  | add q m =>
    refine h.keptBy_add rfl rfl rfl (fun _ => .of_same rfl rfl rfl rfl)
      (fun _ h => h.of_same rfl (fun _ => rfl) fun _ => .rfl) fun sh' => ?_
    -- the new handle comes last
    simp only [Shell.handleQueues, Array.toList_push, List.map_append]
    exact List.prefix_append _ _
  | remove q id => exact h.keptBy_remove rfl rfl rfl
  | dismiss q id => exact h.keptBy_dismiss hhush q id
  | update k u => exact h.keptBy_update hhush k u
  | notifyHandle k failure lead => exact h.keptBy_notifyHandle k failure lead
  | clear k => exact h.keptBy_clear k
  | register p content => exact h.keptBy_register p content
  | release r => exact h.keptBy_release rfl rfl rfl
  | drop r =>
    by_cases hr : .registration r ∈ sh.referenced
    · -- a registration that is still referred to is not released
      have hnone : (BoardStep.drop r).changes? (Shell.hush act) sh = none := if_pos hr
      refine h.keptBy_nothing (if_pos hr) ?_
      rw [Attended.moves_of_none hnone]
      exact if_pos hr
    · exact h.keptBy_release (if_neg hr) (if_neg hr) (if_neg hr)
  | set p u => exact h.keptBy_set hhush p u
  | setOpened p u => exact h.keptBy_setOpened hhush p u
  | subscribe b => exact h.keptBy_subscribe b
  | unsubscribe n => exact h.keptBy_unsubscribe n
  | aside a =>
    refine Attended.keptBy_landing h rfl ?_
    rw [Attended.moves_of_none rfl]
    exact h.aside (hs sh)

end AppShell
