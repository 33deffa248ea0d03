/-
AppShell/Proofs/Storage/Telling.lean

Tellings whose listeners take steps again.

Each listener of a list is told what can be read at that moment, so it is up to
date when its callback starts (`UpToDate.tell`); what its callback changes is
announced before the next listener has its turn.  So a loop over the listeners
of a source settles all of them (`Yields.tellAwaited`), and an announcement
settles those who listen to the store and, through the contexts that relay it,
those who listen to a context (`Yields.announceAwaited`).

A replacement is the exception.  Its loop reads through the store that it
installed itself, and a callback may have installed another one since: what is
told then is noted (`Shell.replaceStations`).

The main statement is `Yields.useAwaited`: every step that uses what is there
keeps those who are watched up to date.
-/
import AppShell.Proofs.Storage.Freshness

namespace AppShell

open Shell (SameObjects SameTables)

variable {α : Type} {past : History} {o : Outset} {i j : Outlook} {notes : List Telling}
  {sh : Shell α} {source : StoreSource} {l : KeyListener} {ls : List KeyListener}

/-! ### One listener -/

namespace UpToDate

/-- A listener that is told what can be read, or whose telling is noted, need not wait. -/
theorem tell (h : UpToDate past o (i.waiting source (l :: ls)) notes sh) (hl : i.listed source l)
    {label : String} (hreport : l.report = .value label) {value : Option String}
    (hvalue : ∀ n b, sh.subscribedTo n = some b → b.source = source → b.listener n = l →
      o.lax ∧ (n, (sh.received n).length + 1) ∈ notes ∨
        value = sh.valueOf source l.key l.level) :
    UpToDate past o (i.waiting source ls) notes (sh.note (.value label value)) := by
  have hsame : SameObjects sh (sh.note (.value label value)) := .note _ _
  have htables := SameTables.of_sameObjects hsame
  have hrec : ∀ n, (sh.note (.value label value)).received n =
      sh.received n ++ if l.records n then [value] else [] := by
    intro n
    rw [Shell.received_note]
    by_cases hlabel : label = recordLabel n <;>
      simp [Event.toldTo, KeyListener.records, hreport, hlabel]
  have hlisted := h.listed source l
  refine ⟨?sound, h.held, h.inUse, h.count, ?told, ?listed, ?shown⟩
  case sound =>
    refine h.toSound.of_sameTables (h.toPlaced.of_sameObjects hsame) htables fun n hn => ?_
    -- those who are yet to subscribe are not listed
    rw [hrec, if_neg fun hr => absurd (hlisted n hl hr).1 (Nat.not_lt.2 hn), List.append_nil]
  case told =>
    intro n
    rw [hrec, List.length_append]
    exact Nat.le_add_right_of_le (h.told n)
  case listed =>
    intro source' l' n hl' hr
    rw [h.subscribedTo_of_sameTables htables]
    exact h.listed source' l' n hl' hr
  case shown =>
    intro n b hn hw
    rw [h.subscribedTo_of_sameTables htables] at hn
    by_cases hr : l.records n = true
    · -- the subscriber that is told, which the list names rightly as long as it is attached
      obtain ⟨hsource, hlistener⟩ := (hlisted n hl hr).2 b hn
      rcases hvalue n b hn hsource hlistener with ⟨hlax, hmem⟩ | hread
      · refine .inr (.inl ⟨hlax, ?_⟩)
        rwa [hrec, if_pos hr, List.length_append]
      · refine .inr (.inr ?_)
        rw [Outset.Current, hrec, if_pos hr, List.drop_append_of_le_length (h.told n),
          List.getLast?_concat]
        refine hread.trans ?_
        rw [hsame.valueOf, ← hlistener, ← hsource]
        rfl
    · -- any other waits on, since it is not the first of the list
      have hkept : (sh.note (.value label value)).received n = sh.received n := by
        rw [hrec, if_neg hr, List.append_nil]
      rw [hkept]
      rcases h.shown n b hn hw with (ha | ⟨hsource, hmem⟩) | hnoted | hc
      · exact .inl (.inl ha)
      · rcases List.mem_cons.1 hmem with hself | hmem
        · rw [← hself, Binding.records_listener, decide_eq_true rfl] at hr
          exact absurd rfl hr
        · exact .inl (.inr ⟨hsource, hmem⟩)
      · exact .inr (.inl hnoted)
      · exact .inr (.inr (hc.congr hkept (hsame.valueOf _ _ _)))

/-- No subscriber waits for a listener that does not tell a text. -/
theorem pass (h : UpToDate past o (i.waiting source (l :: ls)) notes sh)
    (hreport : ∀ label, l.report ≠ .value label) :
    UpToDate past o (i.waiting source ls) notes sh := by
  refine h.reawait fun n b _ ha => ha.imp_right fun hmem => ⟨hmem.1, ?_⟩
  rcases List.mem_cons.1 hmem.2 with hself | hmem
  · exact absurd rfl (hself ▸ hreport (recordLabel n))
  · exact hmem

/-! ### Lists of listeners -/

/-- Some of the listeners of a source are put on a list, on which those may wait who are among
them. -/
theorem list (h : UpToDate past o i notes sh) {t : Listeners KeyListener}
    (ht : sh.keyedOf source = some t) (hls : ∀ l ∈ ls, l ∈ t.snapshot) (hheld : j.held = i.held)
    (hlisted : j.listed = i.listed)
    (hawaited : ∀ n b, sh.subscribedTo n = some b →
      i.awaited b.source (sh.activeStore b.source) (b.listener n) →
      j.awaited b.source (sh.activeStore b.source) (b.listener n) ∨
        b.source = source ∧ b.listener n ∈ ls) :
    UpToDate past o ((j.listing source ls).waiting source ls) notes sh := by
  refine h.reindex hheld (fun source' l n hl hr => ?_) hawaited
  rcases hl with hl | ⟨rfl, hmem⟩
  · exact h.listed source' l n (hlisted ▸ hl) hr
  · exact h.toSound.of_mem_snapshot ht (hls l hmem) hr

/-- A list at its end is put away. -/
theorem unlist (h : UpToDate past o ((i.listing source ls).waiting source []) notes sh) :
    UpToDate past o i notes sh := by
  refine h.reindex rfl (fun source' l n hl => h.listed source' l n (.inl hl)) fun n b _ ha => ?_
  exact ha.resolve_right fun hmem => absurd hmem.2 List.not_mem_nil

end UpToDate

namespace Yields

variable {act : Shell.Act α} {tr : Answers Telling α}

theorem deliverAwaited (hact : Keeps (UpToDate past o) act tr) (hl : i.listed source l)
    {value : Option String}
    (hvalue : ∀ n b, sh.subscribedTo n = some b → b.source = source → b.listener n = l →
      o.lax ∧ (n, (sh.received n).length + 1) ∈ notes ∨
        value = sh.valueOf source l.key l.level)
    (h : UpToDate past o (i.waiting source (l :: ls)) notes sh) :
    Yields (UpToDate past o) (i.waiting source ls) notes
      (Shell.deliverStations tr l value notes sh) (Shell.deliver act l value sh) := by
  rcases e : l.report with label | label | signal
  · simp only [Shell.deliverStations, Shell.deliver, e]
    exact hact _ _ _ _ (h.tell hl e hvalue)
  · have hpass := h.pass fun _ hr => by rw [hr] at e; cases e
    simp only [Shell.deliverStations, Shell.deliver, e]
    exact hact _ _ _ _ (hpass.of_sameObjects (.note _ _) fun _ =>
      Shell.received_note_of_none rfl sh)
  · have hpass := h.pass fun _ hr => by rw [hr] at e; cases e
    simp only [Shell.deliverStations, Shell.deliver, e]
    exact .refl (hpass.of_sameObjects rfl fun _ => rfl)

/-- A loop over listeners of a source settles all of them. -/
theorem tellAwaited (hact : Keeps (UpToDate past o) act tr) (hls : ∀ l ∈ ls, i.listed source l)
    (h : UpToDate past o (i.waiting source ls) notes sh) :
    Yields (UpToDate past o) (i.waiting source []) notes
      (Shell.tellStations act tr source ls notes sh) (Shell.tell act source ls sh) := by
  refine foldAlong (I := fun ls => i.waiting source ls) (fun l hl rest notes sh h => ?_) h
  -- what is told is read when its turn comes, after all that the callbacks before it did
  have hread := Shell.sameObjects_read sh source l.key l.level
  refine deliverAwaited hact (hls l hl) (fun n b _ _ _ => .inr ?_) (h.read source l.key l.level)
  exact (hread.valueOf source l.key l.level).symm

/-- Those who wait for a list that is told are settled. -/
theorem tellListed (hact : Keeps (UpToDate past o) act tr) (h : UpToDate past o i notes sh)
    {t : Listeners KeyListener} (ht : sh.keyedOf source = some t) (hls : ∀ l ∈ ls, l ∈ t.snapshot)
    (hheld : j.held = i.held) (hlisted : j.listed = i.listed)
    (hawaited : ∀ n b, sh.subscribedTo n = some b →
      i.awaited b.source (sh.activeStore b.source) (b.listener n) →
      j.awaited b.source (sh.activeStore b.source) (b.listener n) ∨
        b.source = source ∧ b.listener n ∈ ls) :
    Yields (UpToDate past o) j notes (Shell.tellStations act tr source ls notes sh)
      (Shell.tell act source ls sh) := by
  have hlist := h.list ht hls hheld hlisted hawaited
  exact (tellAwaited hact (fun l hl => Or.inr ⟨rfl, hl⟩) hlist).settle fun _ h => h.unlist

/-! ### Announcements -/

variable {s : StoreId} {e : StoreEvent} {os : List StoreObserver}

theorem relayAwaited (hact : Keeps (UpToDate past o) act tr) {c : ContextId}
    (h : UpToDate past o (i.relaying s e (.relay c :: os)) notes sh) :
    Yields (UpToDate past o) (i.relaying s e os) notes
      (Shell.relayStations act tr c e notes sh) (Shell.relay act c e sh) := by
  -- whoever still waits after this relay waits for another one, or is among those that it reaches
  have hrest : ∀ n b, sh.subscribedTo n = some b →
      (i.relaying s e (.relay c :: os)).awaited b.source (sh.activeStore b.source) (b.listener n) →
      (i.relaying s e os).awaited b.source (sh.activeStore b.source) (b.listener n) ∨
        b.source = .context c ∧ e.concerns (b.listener n) = true := by
    rintro n b - (ha | ⟨hactive, he, d, hd, hmem⟩)
    · exact .inl (.inl ha)
    · rcases List.mem_cons.1 hmem with hdc | hmem
      · cases hdc
        exact .inr ⟨hd, he⟩
      · exact .inl (.inr ⟨hactive, he, d, hd, hmem⟩)
  rcases hc : sh.contexts[c]? with - | ct
  · -- no one listens to a context that is not there
    simp only [Shell.relayStations, Shell.relay, hc]
    refine .refl (h.reawait fun n b hn ha => (hrest n b hn ha).resolve_right fun hlost => ?_)
    obtain ⟨t, ht⟩ := h.toSound.exists_keyedOf hn
    rw [hlost.1, Shell.keyedOf, hc] at ht
    cases ht
  have halive : sh.contextAlive c = true := h.wired.alive (Shell.wireOf_eq hc)
  have hkeyed : sh.keyedOf (.context c) = some ct.keyed := Shell.keyedOf_context hc
  have hheld : (sh.hold (.context c)).keyedOf (.context c) = some ct.keyed := hkeyed
  -- the context is held while its listeners are told, and let go of when they are
  simp only [Shell.relayStations, Shell.relay, hc, halive, if_true]
  refine (tellListed (j := (i.relaying s e os).holding (.context c)) hact (h.hold (.context c))
    hheld (fun l hl => (List.mem_filter.1 hl).1) rfl rfl fun n b hn ha => ?_).settle
    fun _ h' => h'.unhold h.inUse
  refine (hrest n b hn ha).imp_right fun hmem => ⟨hmem.1, List.mem_filter.2 ⟨?_, hmem.2⟩⟩
  exact h.toSound.mem_snapshot hn (hmem.1 ▸ hkeyed)

theorem observeAwaited (hact : Keeps (UpToDate past o) act tr) (observer : StoreObserver)
    (h : UpToDate past o (i.relaying s e (observer :: os)) notes sh) :
    Yields (UpToDate past o) (i.relaying s e os) notes
      (Shell.observeStations act tr e notes sh observer) (Shell.observe act e sh observer) := by
  cases observer with
  | relay c => exact relayAwaited hact h
  | watch label callback =>
    -- no subscriber waits for a watcher
    have hpass : UpToDate past o (i.relaying s e os) notes sh := by
      refine h.reawait fun n b _ ha => ha.imp_right ?_
      rintro ⟨hactive, he, d, hd, hmem⟩
      exact ⟨hactive, he, d, hd, (List.mem_cons.1 hmem).resolve_left StoreObserver.noConfusion⟩
    cases e with
    | written key =>
      exact hact _ _ _ _ (hpass.of_sameObjects (.note _ _) fun _ =>
        Shell.received_note_of_none rfl sh)
    | consentChanged levels =>
      exact hact _ _ _ _ (hpass.of_sameObjects (.note _ _) fun _ =>
        Shell.received_note_of_none rfl sh)

/-- The observers of a store settle those who listen to a context around it. -/
theorem observersAwaited (hact : Keeps (UpToDate past o) act tr) (hs : s < past.stores)
    (h : UpToDate past o (i.passing s e) notes sh) :
    Yields (UpToDate past o) i notes (Shell.observersStations act tr s e notes sh)
      (Shell.tellObservers act s e sh) := by
  obtain ⟨st, hst⟩ := h.toPlaced.exists_store hs
  -- a context whose active store this is stands among the observers
  have hrelayed : UpToDate past o (i.relaying s e st.observers.snapshot) notes sh := by
    refine h.reawait fun n b _ ha => ha.imp_right ?_
    rintro ⟨hactive, he, c, hc⟩
    have hone := h.wired.snapshot (Shell.observersOf_eq hst) c
    rw [if_pos (hc ▸ hactive)] at hone
    have hmem : StoreObserver.relay c ∈ st.observers.snapshot.filter (·.relays c) := by
      rw [hone]
      exact List.mem_singleton_self _
    exact ⟨hactive, he, c, hc, (List.mem_filter.1 hmem).1⟩
  have htold : Yields (UpToDate past o) (i.relaying s e []) notes
      (Shell.observersStations act tr s e notes sh) (Shell.tellObservers act s e sh) := by
    simp only [Shell.observersStations, Shell.tellObservers, hst]
    exact foldAlong (I := fun os => i.relaying s e os)
      (fun observer _ _ _ _ h => observeAwaited hact observer h) hrelayed
  refine htold.settle fun _ h => h.reawait fun n b _ ha => ha.resolve_right ?_
  rintro ⟨-, -, c, -, hmem⟩
  exact List.not_mem_nil hmem

/-- An announcement settles those whom it concerns. -/
theorem announceAwaited (hact : Keeps (UpToDate past o) act tr) {st : Store}
    (hs : sh.stores[s]? = some st) (h : UpToDate past o (i.announcing s e) notes sh) :
    Yields (UpToDate past o) i notes (Shell.announceStations act tr s e notes sh)
      (Shell.announce act s e sh) := by
  have hkeyed := Shell.keyedOf_store hs
  have htold : Yields (UpToDate past o) (i.passing s e) notes
      (Shell.tellStations act tr (.store s) (st.keyed.snapshot.filter e.concerns) notes sh)
      (Shell.tell act (.store s) (st.keyed.snapshot.filter e.concerns) sh) := by
    refine tellListed hact h hkeyed (fun l hl => (List.mem_filter.1 hl).1) rfl rfl ?_
    rintro n ⟨source, key, level⟩ hn (ha | ⟨hactive, he⟩)
    · exact .inl (.inl ha)
    · cases source with
      | context c => exact .inl (.inr ⟨hactive, he, c, rfl⟩)
      | store s' =>
        cases hactive
        exact .inr ⟨rfl, List.mem_filter.2 ⟨h.toSound.mem_snapshot hn hkeyed, he⟩⟩
  have hlt : s < past.stores := h.stores ▸ (Array.getElem?_eq_some_iff.1 hs).1
  simp only [Shell.announceStations, Shell.announce, hs]
  exact htold.trans (observersAwaited hact hlt htold.last)

end Yields

/-! ### Replacements -/

namespace Shell

/-- The notes of a telling by the loop of a replacement, which is noted if another store was
installed in the context since. -/
def noteOvertaken (sh : Shell α) (c : ContextId) (s : StoreId) (l : KeyListener)
    (notes : List Telling) : List Telling :=
  if sh.activeStore (.context c) = some s then notes
  else (l.callback, (sh.received l.callback).length + 1) :: notes

/-- The stations while listeners of a context are told what a store that was installed in it
holds. -/
def tellInstalledStations (act : Act α) (tr : Answers Telling α) (c : ContextId) (s : StoreId)
    (ls : List KeyListener) (notes : List Telling) (sh : Shell α) : Stations Telling α :=
  foldStations
    (fun sh l =>
      let (value, sh) := sh.read (.store s) l.key l.level
      deliver act l value sh)
    (fun l notes sh =>
      let notes := sh.noteOvertaken c s l notes
      let (value, sh) := sh.read (.store s) l.key l.level
      deliverStations tr l value notes sh ++ [⟨notes, sh⟩]) ls notes sh

/-- The stations of a replacement, from the installation on. -/
def replaceStations (act : Act α) (tr : Answers Telling α) (c : ContextId) (s : StoreId)
    (notes : List Telling) (sh : Shell α) : Stations Telling α :=
  match sh.contexts[c]? with
  | none => []
  | some ct =>
    tellInstalledStations act tr c s ct.keyed.snapshot notes (sh.install c ct s) ++
      [⟨notes, sh.install c ct s⟩]

/-- A read through the active store of a context is a read through the context. -/
theorem read_of_active {c : ContextId} {s : StoreId} (h : sh.activeStore (.context c) = some s)
    (key : String) (level : ConsentLevel) :
    sh.read (.store s) key level = sh.read (.context c) key level := by
  rw [read, read, h]
  rfl

end Shell

namespace UpToDate

/-- What a telling by the loop of a replacement leaves behind is current, unless it is noted. -/
theorem overtaken_or_current (h : UpToDate past o i notes sh) (hlax : o.lax) (c : ContextId)
    (s : StoreId) (l : KeyListener) :
    UpToDate past o i (sh.noteOvertaken c s l notes) (sh.read (.store s) l.key l.level).2 ∧
      ∀ n (b : Binding), b.listener n = l →
        o.lax ∧ (n, ((sh.read (.store s) l.key l.level).2.received n).length + 1) ∈
            sh.noteOvertaken c s l notes ∨
          (sh.read (.store s) l.key l.level).1 =
            (sh.read (.store s) l.key l.level).2.valueOf (.context c) l.key l.level := by
  have hread := h.read (.store s) l.key l.level
  have hsame := Shell.sameObjects_read sh (.store s) l.key l.level
  by_cases hactive : sh.activeStore (.context c) = some s
  · have hnotes : sh.noteOvertaken c s l notes = notes := if_pos hactive
    rw [hnotes]
    refine ⟨hread, fun n b _ => .inr ?_⟩
    rw [hsame.valueOf, Shell.valueOf, Shell.read_of_active hactive]
  · have hnotes : sh.noteOvertaken c s l notes =
        (l.callback, (sh.received l.callback).length + 1) :: notes := if_neg hactive
    rw [hnotes]
    refine ⟨hread.note_telling _, fun n b hl => .inl ⟨hlax, ?_⟩⟩
    have hcallback : l.callback = n := hl ▸ rfl
    rw [(Shell.delivers_read (n := n) sh (.store s) l.key l.level).told, List.append_nil, hcallback]
    exact List.mem_cons_self

end UpToDate

namespace Yields

variable {act : Shell.Act α} {tr : Answers Telling α} {c : ContextId} {s : StoreId}

theorem tellInstalled (hact : Keeps (UpToDate past o) act tr) (hlax : o.lax)
    (hls : ∀ l ∈ ls, i.listed (.context c) l)
    (h : UpToDate past o (i.waiting (.context c) ls) notes sh) :
    Yields (UpToDate past o) (i.waiting (.context c) []) notes
      (Shell.tellInstalledStations act tr c s ls notes sh) (Shell.tell act (.store s) ls sh) := by
  refine foldAlong (I := fun ls => i.waiting (.context c) ls) (fun l hl rest notes sh h => ?_) h
  obtain ⟨hread, hvalue⟩ := h.overtaken_or_current hlax c s l
  exact concat notes hread (deliverAwaited hact (hls l hl)
    (fun n b _ _ hlistener => hvalue n b hlistener) hread)

/-- The loop of a replacement settles those who listen to the context, but for the tellings that
are noted. -/
theorem installedAwaited (hact : Keeps (UpToDate past o) act tr) (hlax : o.lax) {ct : StoreContext}
    (hc : sh.contexts[c]? = some ct)
    (h : UpToDate past o (i.waiting (.context c) ct.keyed.snapshot) notes (sh.install c ct s)) :
    Yields (UpToDate past o) i notes (Shell.replaceStations act tr c s notes sh)
      (Shell.replaceStore act c s sh).2 := by
  have hkeyed : (sh.install c ct s).keyedOf (.context c) = some ct.keyed := by
    rw [Shell.keyedOf_install, Shell.keyedOf_context hc]
  have hlist := h.list (j := i) hkeyed (fun _ => id) rfl rfl fun _ _ _ ha => ha
  rw [Shell.replaceStore_eq act hc]
  simp only [Shell.replaceStations, hc]
  have htold := tellInstalled (s := s) hact hlax (fun l hl => Or.inr ⟨rfl, hl⟩) hlist
  exact concat notes h (htold.settle fun _ h => h.unlist)

theorem replaceAwaited (hact : Keeps (UpToDate past o) act tr) (hlax : o.lax)
    (hc : c < past.contexts) (hs : s < past.stores) (h : UpToDate past o i notes sh) :
    Yields (UpToDate past o) i notes (Shell.replaceStations act tr c s notes sh)
      (Shell.replaceStore act c s sh).2 := by
  obtain ⟨ct, hct⟩ := h.toPlaced.exists_context hc
  exact installedAwaited hact hlax hct (h.install hct hs)

end Yields

end AppShell
