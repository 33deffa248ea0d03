/-
AppShell/Proofs/Storage/Plain.lean

Shells without flags and closes.

A store has two flags and remembers whether it was closed, and a memory remembers
that as well.  `Shell.plain` is a shell in which nothing of this is told apart and
the log has no closes; two shells are alike if they are the same in this sense.

What reads no flag does the same in a shell and in its plain one, and a close does
nothing to the plain one (`plain_closeStore`, `plain_mediumClose`).  This is shown
here for the operations that call nobody.
-/
import AppShell.Proofs.Storage.Planted
import AppShell.Proofs.Storage.Reentry

namespace AppShell

variable {α : Type}

/-- A memory that was not closed. -/
def Memory.plain (mem : Memory) : Memory :=
  { mem with closed := false }

/-- A store without flags that was not closed. -/
def Store.plain (st : Store) : Store :=
  { st with config := ⟨false, false⟩, closed := false }

/-- A step that gives a new store no flags. -/
def StorageStep.plain : StorageStep → StorageStep
  | .newStore m _ => .newStore m ⟨false, false⟩
  | step => step

namespace Shell

/-- The shell without flags and closes. -/
def plain (sh : Shell α) : Shell α :=
  { sh with
    memories := sh.memories.map Memory.plain
    stores := sh.stores.map Store.plain
    log := sh.log.filter fun e => !e.isClose }

/-- Shells that differ in flags and closes only. -/
def Alike (sh sh' : Shell α) : Prop :=
  sh.plain = sh'.plain

/-! ### Looking at a plain shell -/

theorem plain_empty : (empty : Shell α).plain = empty := by
  simp [plain, empty]

theorem plain_memories (sh : Shell α) (i : MemoryId) :
    sh.plain.memories[i]? = sh.memories[i]?.map Memory.plain :=
  Array.getElem?_map

theorem plain_stores (sh : Shell α) (s : StoreId) :
    sh.plain.stores[s]? = sh.stores[s]?.map Store.plain :=
  Array.getElem?_map

/-- An event that is no close is noted in the plain shell too. -/
theorem plain_note (sh : Shell α) {e : Event} (he : e.isClose = false) :
    (sh.note e).plain = sh.plain.note e := by
  simp [plain, note, List.filter_append, he]

/-- A close is not noted in the plain shell. -/
theorem plain_note_close (sh : Shell α) {e : Event} (he : e.isClose = true) :
    (sh.note e).plain = sh.plain := by
  simp [plain, note, List.filter_append, he]

/-- A change to a store that does not look at its flags is the same change to the plain store. -/
theorem plain_modify_stores (sh : Shell α) (s : StoreId) {f : Store → Store}
    (h : ∀ st, (f st).plain = f st.plain) :
    ({ sh with stores := sh.stores.modify s f } : Shell α).plain =
      { sh.plain with stores := sh.plain.stores.modify s f } := by
  simp only [plain, map_modify sh.stores s h]

/-- A change to a memory that does not look at whether it is closed is the same change to the plain
memory. -/
theorem plain_modify_memories (sh : Shell α) (i : MemoryId) {f : Memory → Memory}
    (h : ∀ mem, (f mem).plain = f mem.plain) {e : Event} (he : e.isClose = false) :
    ({ sh with memories := sh.memories.modify i f }.note e).plain =
      { sh.plain with memories := sh.plain.memories.modify i f }.note e := by
  rw [plain_note _ he]
  simp only [plain, map_modify sh.memories i h]

/-- Whether a store admits a level depends on neither flags nor closes. -/
theorem admits_plain (sh : Shell α) (s : StoreId) (level : ConsentLevel) :
    sh.plain.admits s level = sh.admits s level := by
  simp only [admits, plain_stores]
  rcases sh.stores[s]? with - | st <;> rfl

theorem mediumOf_plain (sh : Shell α) (s : StoreId) : sh.plain.mediumOf s = sh.mediumOf s := by
  simp only [mediumOf, plain_stores]
  rcases sh.stores[s]? with - | st <;> rfl

/-- The store that a source stands for depends on neither flags nor closes. -/
theorem activeStore_plain (sh : Shell α) (source : StoreSource) :
    sh.plain.activeStore source = sh.activeStore source := by
  cases source <;> rfl

theorem admitted_plain (sh : Shell α) (b : Binding) : sh.plain.admitted b = sh.admitted b := by
  simp only [admitted, activeStore_plain, admits_plain]

/-! ### Operations without callbacks -/

/-- A medium answers the same whether it was closed or not. -/
theorem plain_mediumGet (sh : Shell α) (m : Medium) (key : String) :
    sh.plain.mediumGet m key = ((sh.mediumGet m key).1, (sh.mediumGet m key).2.plain) := by
  cases m with
  | web => rfl
  | memory i =>
    rcases e : sh.memories[i]? with - | mem
    · simp only [mediumGet, plain_memories, e, Option.map_none]
    · simp only [mediumGet, plain_memories, e, Option.map_some]
      rw [plain_note _ rfl]
      rfl

/-- A read returns the same in the plain shell, and leaves the plain form of what it leaves here. -/
theorem plain_read (sh : Shell α) (source : StoreSource) (key : String) (level : ConsentLevel) :
    sh.plain.read source key level =
      ((sh.read source key level).1, (sh.read source key level).2.plain) := by
  rcases ea : sh.activeStore source with - | s
  · simp only [read, activeStore_plain, ea]
  · rcases es : sh.stores[s]? with - | st
    · simp only [read, activeStore_plain, ea, readStore, plain_stores, es, Option.map_none]
    · simp only [read, activeStore_plain, ea, readStore, plain_stores, es, Option.map_some,
        Store.plain]
      split
      · exact plain_mediumGet sh st.medium key
      · rfl

/-- A write changes the same entry in the plain shell. -/
theorem plain_putEntry (sh : Shell α) (m : Medium) (key : String) (value : Option String) :
    (sh.putEntry m key value).plain = sh.plain.putEntry m key value := by
  cases m with
  | web => cases value <;> rfl
  | memory i =>
    rcases e : sh.memories[i]? with - | mem
    · cases value <;>
        simp only [putEntry, mediumSet, mediumRemove, plain_memories, e, Option.map_none]
    · cases value with
      | none =>
        have hremove := plain_modify_memories sh i (f := fun mem => mem.remove key) (fun _ => rfl)
          (e := .mediumRemove mem.label key) rfl
        simp only [putEntry, mediumRemove, plain_memories, e, Option.map_some]
        exact hremove
      | some text =>
        have hset := plain_modify_memories sh i (f := fun mem => mem.set key text) (fun _ => rfl)
          (e := .mediumSet mem.label key text) rfl
        simp only [putEntry, mediumSet, plain_memories, e, Option.map_some]
        exact hset

/-- A close of a medium does nothing to the plain shell. -/
theorem plain_mediumClose (sh : Shell α) (m : Medium) : (sh.mediumClose m).plain = sh.plain := by
  cases m with
  | web => rfl
  | memory i =>
    rcases e : sh.memories[i]? with - | mem
    · simp only [mediumClose, e]
    · have hclosed : (sh.memories.modify i fun mem => { mem with closed := true }).map Memory.plain
          = sh.memories.map Memory.plain := map_modify_of_same sh.memories i fun _ => rfl
      simp only [mediumClose, e]
      rw [plain_note_close _ rfl]
      simp only [plain, hclosed]

/-- Nor does a close of a store, whatever its flags are and whether it was closed before. -/
theorem plain_closeStore (sh : Shell α) (s : StoreId) : (sh.closeStore s).plain = sh.plain := by
  have hclosed : ({ sh with
      stores := sh.stores.modify s fun st => { st with closed := true } } : Shell α).plain
        = sh.plain := by
    have hstores : (sh.stores.modify s fun st => { st with closed := true }).map Store.plain
        = sh.stores.map Store.plain := map_modify_of_same sh.stores s fun _ => rfl
    simp only [plain, hstores]
  unfold closeStore
  split
  · rfl
  · split
    · rfl
    · split
      · exact hclosed
      · exact (plain_mediumClose _ _).trans hclosed

/-- An observer gets the same number in the plain shell. -/
theorem plain_attachObserver (sh : Shell α) (s : StoreId) (o : StoreObserver) :
    sh.plain.attachObserver s o =
      ((sh.attachObserver s o).1, (sh.attachObserver s o).2.plain) := by
  rcases e : sh.stores[s]? with - | st
  · simp only [attachObserver, plain_stores, e, Option.map_none]
  · have hattach := plain_modify_stores sh s
      (f := fun st' => { st' with observers := (st.observers.insert o).2 }) fun _ => rfl
    simp only [attachObserver, plain_stores, e, Option.map_some]
    exact congrArg (Prod.mk (st.observers.insert o).1) hattach.symm

/-- Giving up an entry of a table is the same in the plain shell. -/
theorem plain_detach (sh : Shell α) (table : ListenerTable) (number : Nat) :
    (sh.detach table number).plain = sh.plain.detach table number := by
  cases table with
  | keyed s | observers s => exact plain_modify_stores sh s fun _ => rfl
  | context c | queue q | panel p => rfl

/-- Installing a store in a context is the same in the plain shell. -/
theorem plain_install (sh : Shell α) (c : ContextId) (ct : StoreContext) (s : StoreId) :
    (sh.install c ct s).plain = sh.plain.install c ct s := by
  rw [install, plain_detach, install, plain_attachObserver]
  rfl

/-- A listener is put into the same table of the plain shell. -/
theorem plain_listen (sh : Shell α) (source : StoreSource) (l : KeyListener) :
    (sh.listen source l).2.plain = (sh.plain.listen source l).2 := by
  cases source with
  | context c => rcases e : sh.contexts[c]? with - | ct <;> simp only [listen, plain, e] <;> rfl
  | store s =>
    rcases e : sh.stores[s]? with - | st
    · simp only [listen, plain_stores, e, Option.map_none]
      rfl
    · have hlisten := plain_modify_stores sh s
        (f := fun st' => { st' with keyed := (st.keyed.insert l).2 }) fun _ => rfl
      simp only [listen, plain_stores, e, Option.map_some]
      exact congrArg (fun sh : Shell α => (sh.addSubscription (.keyed s) _).2) hlisten

/-- Giving a subscription up is the same in the plain shell. -/
theorem plain_unsubscribe (sh : Shell α) (n : SubscriptionId) :
    (sh.unsubscribe n).plain = sh.plain.unsubscribe n := by
  rcases e : sh.subscriptions[n]? with - | ⟨table, number, active⟩
  · have e' : sh.plain.subscriptions[n]? = none := e
    simp only [unsubscribe, e, e']
  · have e' : sh.plain.subscriptions[n]? = some ⟨table, number, active⟩ := e
    cases active with
    | false => simp only [unsubscribe, e, e', Bool.false_eq_true, if_false]
    | true =>
      simp only [unsubscribe, e, e', if_true]
      rw [← plain_detach]
      rfl

end Shell

/-! ### Shells that are alike -/

open Shell (Alike)

namespace Shell.Alike

variable {sh sh' : Shell α}

/-- What commutes with forgetting flags and closes keeps shells alike. -/
theorem of_plain {f : Shell α → Shell α} (hf : ∀ sh, (f sh).plain = f sh.plain)
    (h : Alike sh sh') : Alike (f sh) (f sh') := by
  show (f sh).plain = (f sh').plain
  rw [hf, hf, h]

/-- Stores under one number, in two shells that are alike. -/
theorem stores (h : Alike sh sh') (s : StoreId) :
    sh.stores[s]? = none ∧ sh'.stores[s]? = none ∨
      ∃ st st', sh.stores[s]? = some st ∧ sh'.stores[s]? = some st' ∧
        st.consent = st'.consent ∧ st.keyed = st'.keyed ∧ st.observers = st'.observers := by
  have hplain : sh.stores[s]?.map Store.plain = sh'.stores[s]?.map Store.plain := by
    rw [← plain_stores, ← plain_stores, h]
  rcases e : sh.stores[s]? with - | st <;> rcases e' : sh'.stores[s]? with - | st'
  · exact .inl ⟨rfl, rfl⟩
  · rw [e, e'] at hplain
    cases hplain
  · rw [e, e'] at hplain
    cases hplain
  · rw [e, e'] at hplain
    obtain ⟨-, -, hconsent, hkeyed, hobservers, -⟩ := Store.mk.inj (Option.some.inj hplain)
    exact .inr ⟨st, st', rfl, rfl, hconsent, hkeyed, hobservers⟩

/-- Alike shells stay alike when both note the same event. -/
theorem note (h : Alike sh sh') (e : Event) : Alike (sh.note e) (sh'.note e) := by
  show (sh.note e).plain = (sh'.note e).plain
  rcases he : e.isClose with - | -
  · rw [plain_note sh he, plain_note sh' he, h]
  · rw [plain_note_close sh he, plain_note_close sh' he, h]

/-- What is the same in a plain shell is the same in shells that are alike. -/
theorem look {β : Type} {f : Shell α → β} (hf : ∀ sh, f sh.plain = f sh) (h : Alike sh sh') :
    f sh = f sh' := by
  rw [← hf sh, ← hf sh', h]

/-- Alike shells answer a read alike. -/
theorem read_fst (h : Alike sh sh') (source : StoreSource) (key : String) (level : ConsentLevel) :
    (sh.read source key level).1 = (sh'.read source key level).1 :=
  h.look (f := fun sh => (sh.read source key level).1) fun sh => by rw [plain_read]

/-- Alike shells are alike after a read. -/
theorem read_snd (h : Alike sh sh') (source : StoreSource) (key : String) (level : ConsentLevel) :
    Alike (sh.read source key level).2 (sh'.read source key level).2 :=
  h.of_plain (f := fun sh => (sh.read source key level).2) fun sh => by rw [plain_read]

/-- New stores are alike, whatever their flags are. -/
theorem addStore (m : Medium) (config config' : StoreConfig) (h : Alike sh sh') :
    Alike (sh.addStore (.new m config)).2 (sh'.addStore (.new m config')).2 := by
  have hplain : ∀ config (sh : Shell α), (sh.addStore (.new m config)).2.plain =
      { sh.plain with stores := sh.plain.stores.push (.new m ⟨false, false⟩) } := by
    intro config sh
    simp only [Shell.addStore, plain, Array.map_push]
    rfl
  show (sh.addStore _).2.plain = (sh'.addStore _).2.plain
  rw [hplain, hplain, h]

end Shell.Alike

namespace StorageStep

/-- Two steps that are alike are one step, or make a store on one medium with different flags. -/
theorem eq_or_newStore {step step' : StorageStep} (h : step.plain = step'.plain) :
    step = step' ∨ ∃ m config config', step = .newStore m config ∧ step' = .newStore m config' := by
  cases step <;> cases step' <;> simp_all [plain]

/-- A step that calls nobody. -/
def IsQuiet : StorageStep → Prop
  | .write _ _ | .remove _ | .setConsent _ _ | .replace _ _ => False
  | _ => True

end StorageStep

/-- A step that calls nobody keeps shells alike. -/
theorem Shell.Alike.perform {step : StorageStep} (hq : step.IsQuiet) {sh sh' : Shell α}
    (h : Alike sh sh') : Alike (step.perform sh) (step.perform sh') := by
  cases step with
  | write b value | remove b | setConsent s levels | replace c s => exact hq.elim
  | newMemory label =>
    exact h.of_plain (f := (StorageStep.newMemory label).perform) fun sh => by
      simp only [StorageStep.perform, Shell.plain, Array.map_push]
      rfl
  | newStore m config => exact h.addStore m config config
  | newContext s =>
    exact h.of_plain (f := (StorageStep.newContext s).perform) fun sh => by
      simp only [StorageStep.perform, Shell.addContext, Shell.plain_attachObserver]
      rfl
  | read b =>
    -- both shells note the value that was read, which is the same in both
    have hvalue := h.read_fst b.source b.key b.level
    have hnote := (h.read_snd b.source b.key b.level).note
    show Alike ((sh.read b.source b.key b.level).2.note _)
      ((sh'.read b.source b.key b.level).2.note _)
    rw [Shell.bindingValue, Shell.bindingValue, hvalue]
    exact hnote _
  | close s =>
    show (sh.closeStore s).plain = (sh'.closeStore s).plain
    rw [Shell.plain_closeStore, Shell.plain_closeStore]
    exact h
  | put m key value =>
    exact h.of_plain (f := fun sh => sh.putEntry m key (some value)) fun sh =>
      Shell.plain_putEntry sh m key (some value)
  | take m key =>
    exact h.of_plain (f := fun sh => sh.putEntry m key none) fun sh =>
      Shell.plain_putEntry sh m key none
  | subscribe b =>
    exact h.of_plain (f := (StorageStep.subscribe b).perform) fun sh =>
      Shell.plain_listen sh b.source _
  | watch s =>
    exact h.of_plain (f := (StorageStep.watch s).perform) fun sh => by
      simp only [StorageStep.perform, Shell.watch, Shell.plain_attachObserver]
      rfl
  | unsubscribe n =>
    exact h.of_plain (f := fun sh => sh.unsubscribe n) fun sh => Shell.plain_unsubscribe sh n

end AppShell
