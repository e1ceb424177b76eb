import ItemBinning.Proofs.Bin.Room
import ItemBinning.Proofs.Engine.Run

/-!
# The books of an engine

The counters of an engine, the reports of its activations, the length of its queue and
the entries of its bins are written at different places, and on some branches only.
An intake enters what it binned and queued, a migration what it queued, and each bin of
the drain is entered once, under one outcome.  So after every run without a failed
activation and without a reset the counters are the sums over the reports, every bin
that was queued was completed or still waits, and every item that was binned stands in
a bin.
-/

namespace ItemBinning

namespace Depot

/-- How many items all the bins together ever took. -/
def entries (depot : Depot) : Nat :=
  depot.bins.total Bin.entryCount

theorem entries_setBin (depot : Depot) (number : BinId) (bin : Bin) :
    (depot.setBin number bin).entries + (depot.bin number).entryCount =
      depot.entries + bin.entryCount :=
  depot.bins.total_set number bin Bin.entryCount rfl

theorem entries_setBin_of_same (depot : Depot) {number : BinId} {bin : Bin}
    (same : bin.contents = (depot.bin number).contents) :
    (depot.setBin number bin).entries = depot.entries := by
  have changed := depot.entries_setBin number bin
  unfold Bin.entryCount at changed
  rw [same] at changed
  exact Nat.add_right_cancel changed

theorem entries_withBin (depot : Depot) (bounds : Bounds) (group : Value) :
    (depot.withBin bounds group).entries = depot.entries :=
  depot.bins.total_push _ Bin.entryCount

/-- The counters, the length of the queue and the entries are as given. -/
structure Books (counters : Counters) (queued entries : Nat) (depot : Depot) : Prop where
  counters : depot.counters = counters
  queued : depot.ready.length = queued
  entries : depot.entries = entries

variable {counters : Counters} {queued entries : Nat} {depot : Depot}

theorem books_self (depot : Depot) :
    depot.Books depot.counters depot.ready.length depot.entries :=
  ⟨rfl, rfl, rfl⟩

/-- A bin may change in all but its contents. -/
theorem Books.setBin (books : depot.Books counters queued entries) {number : BinId}
    {bin : Bin} (same : bin.contents = (depot.bin number).contents) :
    (depot.setBin number bin).Books counters queued entries :=
  ⟨books.counters, books.queued, (depot.entries_setBin_of_same same).trans books.entries⟩

/-- A bin that takes an item has one entry more. -/
theorem Books.take (books : depot.Books counters queued entries) {number : BinId} {bin : Bin}
    {item : Item} (taken : bin.contents = (depot.bin number).contents ++ [item])
    (flow : Flow) :
    { depot.setBin number bin with flow }.Books counters queued (entries + 1) := by
  have changed := depot.entries_setBin number bin
  unfold Bin.entryCount at changed
  rw [taken, List.length_append, List.length_singleton, books.entries] at changed
  have grown : (depot.setBin number bin).entries = entries + 1 := by omega
  exact ⟨books.counters, books.queued, grown⟩

theorem Books.withBin (books : depot.Books counters queued entries) (bounds : Bounds)
    (group : Value) : (depot.withBin bounds group).Books counters queued entries :=
  ⟨books.counters, books.queued, (depot.entries_withBin bounds group).trans books.entries⟩

theorem onFlow_books {α : Type} (act : Act Flow α) :
    (onFlow act).Keeps (Books counters queued entries) :=
  Act.Keeps.of_final fun _ books => ⟨books.counters, books.queued, books.entries⟩

theorem mark_books (number : BinId) (target : BinState) :
    (mark number target).Keeps (Books counters queued entries) := by
  apply Act.Keeps.of_final
  intro depot books
  by_cases follows : target ∈ (depot.bin number).state.successors
  · rw [mark_eq follows]
    exact books.setBin rfl
  · rwa [mark_error follows]

theorem markReady_books (number : BinId) (reason : ReadyReason) :
    (markReady number reason).Keeps (Books counters queued entries) :=
  (mark_books number .ready).bind fun _ => Act.Keeps.of_final fun _ books => books.setBin rfl

end Depot

open Depot

variable {counters : Counters} {queued entries : Nat}

theorem Call.perform_books (call : Call) :
    call.perform.Keeps (Books counters queued entries) := by
  apply Act.Keeps.of_final
  intro depot books
  have effect := call.effect_perform depot
  generalize (call.perform depot).2 = reached at effect
  cases effect with
  | flow | policy | aside => exact ⟨books.counters, books.queued, books.entries⟩
  | state bin target => exact books.setBin rfl

/-- No script enters anything in the books. -/
theorem Script.run_books {α : Type} (script : Script α) :
    script.run.Keeps (Books counters queued entries) :=
  script.uses_anything.keeps fun call _ => call.perform_books

namespace Depot

theorem offerTo_books (number : BinId) (item : Item) (source : SessionId) :
    (offerTo number item source).Meets (Books counters queued entries)
      (fun taken => Books counters queued (entries + taken.toNat)) fun _ _ => True := by
  intro depot books
  have outcome := offerTo_outcome number item source depot
  generalize offerTo number item source depot = result at outcome
  cases outcome with
  | refused | kept | unweighed => trivial
  | turnedDown => exact books.setBin rfl
  | taken size flow => exact books.take rfl flow

/-- A bin without bounds takes every item that it is offered, or fails. -/
theorem offerTo_relaxed {number : BinId} {depot : Depot}
    (relaxed : (depot.bin number).bounds = Bounds.relaxed) (item : Item) (source : SessionId) :
    (offerTo number item source).Meets (· = depot) (fun taken _ => taken = true)
      fun _ _ => True := by
  intro reached same
  subst same
  have outcome := offerTo_outcome number item source reached
  generalize offerTo number item source reached = result at outcome
  cases outcome with
  | refused | kept | unweighed => trivial
  | turnedDown _ noRoom =>
      rw [Bin.turnsDown_relaxed relaxed] at noRoom
      cases noRoom
  | taken => rfl

end Depot

namespace Shelf

theorem offerToFirst_books (item : Item) (source : SessionId) (bins : List BinId) :
    (offerToFirst item source bins).Meets (Books counters queued entries)
      (fun taken => Books counters queued (entries + taken.toNat)) fun _ _ => True := by
  induction bins with
  | nil => exact Act.Meets.pure fun _ => id
  | cons bin rest ih =>
      refine (offerTo_books bin item source).bind fun taken => ?_
      cases taken with
      | true => exact Act.Meets.pure fun _ => id
      | false => exact ih

theorem openBinFor_books (group : Value) (key : Key) (item : Item) (source : SessionId) :
    (openBinFor group key item source).Meets (Books counters queued entries)
      (fun taken => Books counters queued (entries + taken.toNat)) fun _ _ => True := by
  intro depot books
  rw [openBinFor_apply]
  refine Act.Meets.bind (offerTo_books depot.bins.next item source) (fun taken => ?_) _
    (books.withBin _ group)
  cases taken with
  | true =>
      exact Act.Meets.bind (Act.Meets.modify fun _ taken =>
        ⟨taken.counters, taken.queued, taken.entries⟩) fun _ => Act.Meets.pure fun _ => id
  | false => exact Act.Meets.pure fun _ => id

theorem place_books (group : Value) (key : Key) (item : Item) (source : SessionId) :
    (place group key item source).Meets (Books counters queued entries)
      (fun placed => Books counters queued (entries + placed.toNat)) fun _ _ => True := by
  have look : (Act.read (·.shelf.binsOf key)).Meets (Books counters queued entries)
      (fun _ => Books counters queued entries) fun _ _ => True :=
    Act.Meets.read fun _ => id
  refine look.bind fun bins => (offerToFirst_books item source bins).bind fun taken => ?_
  cases taken with
  | true => exact Act.Meets.pure fun _ => id
  | false =>
      refine Act.Meets.bind (Act.Meets.look (fun _ _ books _ => books) fun _ _ _ _ => trivial)
        fun full => ?_
      cases full with
      | true => exact Act.Meets.pure fun _ => id
      | false => exact openBinFor_books group key item source

/-- Every item that was offered is in a bin or is given back. -/
theorem placeAll_books (group : Value) (key : Key) (source : SessionId) (items : List Item) :
    (placeAll group key source items).Meets (Books counters queued entries)
      (fun unbound depot => ∃ placed, placed + unbound.length = items.length ∧
        depot.Books counters queued (entries + placed)) fun _ _ => True := by
  induction items generalizing entries with
  | nil => exact Act.Meets.pure fun _ books => ⟨0, rfl, books⟩
  | cons item rest ih =>
      refine (place_books group key item source).bind fun placed => ih.bind fun unbound => ?_
      apply Act.Meets.pure
      rintro depot ⟨more, all, books⟩
      rw [Nat.add_assoc] at books
      refine ⟨placed.toNat + more, ?_, books⟩
      cases placed <;> simp <;> omega

theorem offer_books (group : Value) (items : List Item) (source : SessionId) :
    (offer group items source).Meets (Books counters queued entries)
      (fun unbound depot => ∃ placed, placed + unbound.length = items.length ∧
        depot.Books counters queued (entries + placed)) fun _ _ => True := by
  refine Act.Meets.bind (Act.Meets.look (fun _ _ books _ => books) fun _ _ _ _ => trivial)
    fun issues => ?_
  split
  · split
    · exact placeAll_books group _ source items
    · exact Act.Meets.fail fun _ _ => trivial
  · exact Act.Meets.fail fun _ _ => trivial

end Shelf

namespace Engine

theorem queueUnbound_books (group : Value) (session : SessionId) (item : Item) :
    (queueUnbound group session item).Meets (Books counters queued entries)
      (fun _ => Books counters (queued + 1) (entries + 1)) fun _ _ => True := by
  intro depot books
  rw [queueUnbound_apply]
  have bounds : ((depot.withBin Bounds.relaxed group).bin depot.bins.next).bounds =
      Bounds.relaxed := by rw [bin_withBin_next]
  have offered := ((offerTo_books depot.bins.next item session).weaken
    (fun _ same => same ▸ books.withBin Bounds.relaxed group) (fun _ _ => id)
    fun _ _ => id).and (offerTo_relaxed bounds item session)
  have offered := offered.weaken (fun _ => id) (fun _ _ => id) fun _ _ _ => trivial
  refine offered.bind (fun taken => Act.Meets.knowing ?_) _ rfl
  rintro rfl
  refine (markReady_books _ _).answering.bind fun _ => Act.Meets.modify fun _ reached => ?_
  exact ⟨reached.counters, by rw [List.length_append, reached.queued]; rfl, reached.entries⟩

theorem queueAll_books (group : Value) (session : SessionId) (items : List Item) :
    (Act.forEach items (queueUnbound group session)).Meets (Books counters queued entries)
      (fun _ => Books counters (queued + items.length) (entries + items.length))
      fun _ _ => True := by
  induction items generalizing queued entries with
  | nil => exact Act.Meets.pure fun _ => id
  | cons item rest ih =>
      refine (queueUnbound_books group session item).bind fun _ => ?_
      rw [List.length_cons, ← Nat.add_assoc, ← Nat.add_right_comm queued,
        ← Nat.add_assoc, ← Nat.add_right_comm entries]
      exact ih

/-- What an activation did since the start is entered in the books: in its counters, in
the queue, and in the entries of the bins. -/
structure Entered (start : Depot) (activity : Activation) (idle : Nat) (depot : Depot) :
    Prop where
  itemsBinned : depot.counters.itemsBinned = start.counters.itemsBinned + activity.itemsBinned
  binsMigrated :
    depot.counters.binsMigrated = start.counters.binsMigrated + activity.binsMigrated
  binsProcessed :
    depot.counters.binsProcessed = start.counters.binsProcessed + activity.binsProcessed
  binsFailed : depot.counters.binsFailed = start.counters.binsFailed + activity.binsFailed
  binsRolledBack :
    depot.counters.binsRolledBack = start.counters.binsRolledBack + activity.binsRolledBack
  yields : depot.counters.yields = start.counters.yields + idle
  queued : depot.counters.unboundItems + activity.binsMigrated + start.ready.length =
    start.counters.unboundItems + depot.ready.length +
      (activity.binsProcessed + activity.binsFailed + activity.binsRolledBack)
  removed : depot.counters.binsAged + depot.counters.binsEvicted ≤
    start.counters.binsAged + start.counters.binsEvicted + activity.binsMigrated
  entries : depot.entries = start.entries + activity.itemsBinned

theorem entered_start (start : Depot) : Entered start {} 0 start :=
  ⟨rfl, rfl, rfl, rfl, rfl, rfl, rfl, Nat.le_refl _, rfl⟩

variable {start : Depot} {activity : Activation} {idle : Nat} {engine : Engine}

/-- What keeps the books of every depot enters nothing. -/
theorem entered_of_books {α : Type} {act : Act Depot α}
    (keeps : ∀ counters queued entries, act.Keeps (Books counters queued entries)) :
    act.Keeps (Entered start activity idle) := by
  apply Act.Keeps.of_final
  intro depot entered
  have books : (act depot).2.Books depot.counters depot.ready.length depot.entries :=
    (keeps _ _ _).final depot.books_self
  constructor <;> simp only [books.counters, books.queued, books.entries]
  exacts [entered.itemsBinned, entered.binsMigrated, entered.binsProcessed, entered.binsFailed,
    entered.binsRolledBack, entered.yields, entered.queued, entered.removed, entered.entries]

section Intake

/-- Offer one group of items to the shelf and queue those that found no place. -/
def offerGroup (session : SessionId) (group : Value) (items : List Item) : Act Depot Unit := do
  let unbound ← Shelf.offer group items session
  Act.forEach unbound (queueUnbound group session)
  count fun counters =>
    { counters with
      itemsBinned := counters.itemsBinned + items.length
      unboundItems := counters.unboundItems + unbound.length }

theorem offerGroups_cons (session : SessionId) (group : Value) (items : List Item)
    (rest : List (Value × List Item)) :
    offerGroups session ((group, items) :: rest) = (do
      offerGroup session group items
      let more ← offerGroups session rest
      pure (items.length + more)) := by
  simp only [offerGroup, bind_assoc]
  rfl

/-- Offering a group enters all its items, those that found no place as unbound. -/
theorem offerGroup_books (session : SessionId) (group : Value) (items : List Item) :
    (offerGroup session group items).Meets (Books counters queued entries)
      (fun _ depot => ∃ unbound, depot.Books
        { counters with
          itemsBinned := counters.itemsBinned + items.length
          unboundItems := counters.unboundItems + unbound }
        (queued + unbound) (entries + items.length))
      fun _ _ => True := by
  refine (Shelf.offer_books group items session).bind fun unbound => ?_
  rintro depot ⟨placed, all, books⟩
  refine Act.Meets.bind (queueAll_books group session unbound) (fun _ => ?_) _ books
  refine Act.Meets.modify fun reached books => ⟨unbound.length, ?_, books.queued, ?_⟩
  · rw [← books.counters]
  · rw [← all, ← Nat.add_assoc]
    exact books.entries

theorem offerGroup_entered (session : SessionId) (group : Value) (items : List Item) :
    (offerGroup session group items).Meets (Entered start activity idle)
      (fun _ => Entered start
        { activity with itemsBinned := activity.itemsBinned + items.length } idle)
      fun _ _ => True := by
  intro depot entered
  refine (offerGroup_books session group items).weaken (fun _ => id) ?_ (fun _ _ => id) _
    depot.books_self
  rintro _ reached ⟨unbound, books⟩
  have binned := entered.itemsBinned
  have queued := entered.queued
  have grown := entered.entries
  constructor <;> simp only [books.counters, books.queued, books.entries]
  case itemsBinned | queued | entries => omega
  exacts [entered.binsMigrated, entered.binsProcessed, entered.binsFailed,
    entered.binsRolledBack, entered.yields, entered.removed]

theorem offerGroups_entered (session : SessionId) (groups : List (Value × List Item)) :
    (offerGroups session groups).Meets (Entered start activity idle)
      (fun binned => Entered start
        { activity with itemsBinned := activity.itemsBinned + binned } idle)
      fun _ _ => True := by
  induction groups generalizing activity with
  | nil => exact Act.Meets.pure fun _ => id
  | cons entry rest ih =>
      obtain ⟨group, items⟩ := entry
      rw [offerGroups_cons]
      refine (offerGroup_entered session group items).bind fun _ => ih.bind fun more => ?_
      refine Act.Meets.pure fun depot entered => ?_
      rw [← Nat.add_assoc]
      exact entered

theorem script_entered {α : Type} (script : Script α) :
    script.run.Keeps (Entered start activity idle) :=
  entered_of_books fun _ _ _ => script.run_books

theorem onFlow_entered {α : Type} (act : Act Flow α) :
    (onFlow act).Keeps (Entered start activity idle) :=
  entered_of_books fun _ _ _ => onFlow_books act

theorem classify_entered (hooks : Hooks) (session : SessionId) (item : Item) :
    (classify hooks session item).Keeps (Entered start activity idle) := by
  refine (script_entered _).bind fun version => ?_
  cases version with
  | none => exact Act.Keeps.fail _
  | some version =>
      refine (script_entered _).bind fun group => ?_
      split
      · exact Act.Keeps.pure _
      · exact Act.Keeps.fail _

/-- Items that cannot be classified are counted, but not as binned. -/
theorem groupItems_entered (hooks : Hooks) (session : SessionId) (items : List Item)
    (groups : Groups) :
    (groupItems hooks session items groups).Keeps (Entered start activity idle) := by
  induction items generalizing groups with
  | nil => exact Act.Keeps.pure _
  | cons item rest ih =>
      refine (classify_entered hooks session item).attempt.bind fun outcome => ?_
      rcases outcome with fault | ⟨version, group, key⟩
      · refine (onFlow_entered _).bind fun _ => Act.Keeps.bind ?_ fun _ => ih groups
        exact Act.Keeps.of_final fun depot entered => ⟨entered.itemsBinned,
          entered.binsMigrated, entered.binsProcessed, entered.binsFailed,
          entered.binsRolledBack, entered.yields, entered.queued, entered.removed,
          entered.entries⟩
      · exact ih _

theorem binChunk_entered (hooks : Hooks) (session : SessionId) (items : List Item) :
    (binChunk hooks session items).Meets (Entered start activity idle)
      (fun binned => Entered start
        { activity with itemsBinned := activity.itemsBinned + binned } idle)
      fun _ _ => True := by
  have binned : (binItems hooks session items).Meets (Entered start activity idle)
      (fun binned => Entered start
        { activity with itemsBinned := activity.itemsBinned + binned } idle)
      fun _ _ => True := by
    refine (groupItems_entered hooks session items .empty).answering.bind fun groups => ?_
    refine (offerGroups_entered session groups.values).bind fun binned => ?_
    exact (onFlow_entered _).answering.bind fun _ => Act.Meets.pure fun _ => id
  refine binned.attempt.bind fun outcome => ?_
  cases outcome with
  | ok binned => exact Act.Meets.pure fun _ => id
  | error fault => exact Act.Meets.anything.bind fun _ => Act.Meets.fail fun _ _ => trivial

theorem intake_entered (answers : List Bool) :
    (intake engine answers).Meets (Entered start activity idle)
      (fun result => Entered start
        { activity with itemsBinned := activity.itemsBinned + result.1 } idle)
      fun _ _ => True := by
  induction answers generalizing activity with
  | nil => exact Act.Meets.pure fun _ => id
  | cons scheduled rest ih =>
      refine Act.Meets.bind (Act.Meets.look (fun _ _ entered _ => entered)
        fun _ _ _ _ => trivial) fun room => ?_
      split
      · split
        · have pulled : (pullChunk engine).Meets (Entered start activity idle)
              (fun _ => Entered start activity idle) fun _ _ => True :=
            ((onFlow_entered _).bind fun _ => (onFlow_entered _).bind fun _ =>
              Act.Keeps.pure _).answering
          refine pulled.bind fun ⟨session, items⟩ => ?_
          dsimp only
          split
          · exact Act.Meets.pure fun _ => id
          · refine (binChunk_entered engine.hooks session items).bind fun binned =>
              ih.bind fun result => Act.Meets.pure fun depot entered => ?_
            dsimp only
            rw [← Nat.add_assoc]
            exact entered
        · exact Act.Meets.pure fun _ => id
      · exact Act.Meets.pure fun _ => id

theorem takeIn_entered (answers : List Bool) :
    (takeIn engine answers).Meets (Entered start activity idle)
      (fun result => Entered start
        { activity with itemsBinned := activity.itemsBinned + result.1 } idle)
      fun _ _ => True := by
  refine Act.Meets.bind (Act.Meets.look (fun _ _ entered _ => entered) fun _ _ _ _ => trivial)
    fun capacity => ?_
  split
  · exact intake_entered answers
  · exact Act.Meets.pure fun _ => id

end Intake

section Migration

theorem splitReady_books (relaxed : Bool) (bins : List BinId) :
    (Shelf.splitReady relaxed bins).Keeps (Books counters queued entries) := by
  induction bins with
  | nil => exact Act.Keeps.pure _
  | cons bin rest ih =>
      refine (Act.Keeps.look _).bind fun reason => ?_
      cases reason with
      | none => exact ih.bind fun _ => Act.Keeps.pure _
      | some reason =>
          exact (markReady_books bin reason).bind fun _ => ih.bind fun _ => Act.Keeps.pure _

theorem modifyShelf_books (change : Shelf → Shelf) :
    (modifyShelf change).Keeps (Books counters queued entries) :=
  Act.Keeps.of_final fun _ books => ⟨books.counters, books.queued, books.entries⟩

theorem takeReady_books (relaxed : Bool) (groups : List (Key × List BinId)) :
    (Shelf.takeReady relaxed groups).Keeps (Books counters queued entries) := by
  induction groups with
  | nil => exact Act.Keeps.pure _
  | cons entry rest ih =>
      exact (splitReady_books relaxed entry.2).bind fun _ =>
        (modifyShelf_books _).bind fun _ => ih.bind fun _ => Act.Keeps.pure _

theorem removeReady_books (relaxed : Bool) :
    (Shelf.removeReady relaxed).Keeps (Books counters queued entries) :=
  (Act.Keeps.read _).bind fun groups => (takeReady_books relaxed groups).bind fun _ =>
    (modifyShelf_books _).bind fun _ => Act.Keeps.read _

theorem removeOldest_books : Shelf.removeOldest.Keeps (Books counters queued entries) := by
  refine (Act.Keeps.read _).bind fun oldest => ?_
  cases oldest with
  | none => exact Act.Keeps.pure _
  | some oldest =>
      exact (Act.Keeps.read _).bind fun _ => (modifyShelf_books _).bind fun _ =>
        (markReady_books oldest .evicted).bind fun _ => Act.Keeps.pure _

theorem enqueue_books (bins : List BinId) :
    (enqueue bins).Meets (Books counters queued entries)
      (fun _ => Books counters (queued + bins.length) entries) fun _ _ => True :=
  Act.Meets.modify fun _ books =>
    ⟨books.counters, by rw [List.length_append, books.queued], books.entries⟩

theorem count_books (change : Counters → Counters) :
    (count change).Meets (Books counters queued entries)
      (fun _ => Books (change counters) queued entries) fun _ _ => True :=
  Act.Meets.modify fun _ books =>
    ⟨congrArg change books.counters, books.queued, books.entries⟩

/-- An eviction is counted with the bin that it queues. -/
theorem evictAtCapacity_books :
    evictAtCapacity.Meets (Books counters queued entries)
      (fun added => Books { counters with binsEvicted := counters.binsEvicted + added }
        (queued + added) entries) fun _ _ => True := by
  refine Act.Meets.bind (Act.Meets.look (fun _ _ books _ => books) fun _ _ _ _ => trivial)
    fun full => ?_
  cases full with
  | false => exact Act.Meets.pure fun _ => id
  | true =>
      refine removeOldest_books.answering.bind fun oldest => ?_
      cases oldest with
      | none => exact Act.Meets.pure fun _ => id
      | some oldest =>
          exact (enqueue_books [oldest]).bind fun _ => (count_books _).bind fun _ =>
            Act.Meets.pure fun _ => id

/-- Of the bins that a migration queues, some are counted as aged and some as evicted. -/
theorem migrateBins_books :
    migrateBins.Meets (Books counters queued entries)
      (fun added depot => ∃ aged evicted, aged + evicted ≤ added ∧ depot.Books
        { counters with
          binsAged := counters.binsAged + aged
          binsEvicted := counters.binsEvicted + evicted
          binsMigrated := counters.binsMigrated + added }
        (queued + added) entries)
      fun _ _ => True := by
  refine (removeReady_books true).answering.bind fun ready => ?_
  have look : (Act.read (agedAmong · ready)).Meets
      (Books counters (queued + ready.length) entries)
      (fun aged depot => depot.Books counters (queued + ready.length) entries ∧
        aged ≤ ready.length) fun _ _ => True :=
    Act.Meets.read fun _ books => ⟨books, List.countP_le_length⟩
  refine (enqueue_books ready).bind fun _ => look.bind fun aged => Act.Meets.knowing ?_
  intro few
  refine (count_books _).bind fun _ => ?_
  cases ready with
  | cons bin rest =>
      simp only [List.isEmpty_cons, Bool.false_eq_true, if_false, pure_bind]
      exact (count_books _).bind fun _ => Act.Meets.pure fun depot books =>
        ⟨aged, 0, few, books⟩
  | nil =>
      obtain rfl : aged = 0 := Nat.le_zero.1 few
      refine evictAtCapacity_books.bind fun added => (count_books _).bind fun _ =>
        Act.Meets.pure fun depot books => ⟨0, added, by omega, books⟩

/-- The counters and the activity differ by one completed bin. -/
inductive Completes (counters : Counters) (activity : Activation) :
    Counters → Activation → Prop
  | processed : Completes counters activity
      { counters with binsProcessed := counters.binsProcessed + 1 }
      { activity with binsProcessed := activity.binsProcessed + 1 }
  | failed : Completes counters activity
      { counters with binsFailed := counters.binsFailed + 1 }
      { activity with binsFailed := activity.binsFailed + 1 }
  | rolledBack : Completes counters activity
      { counters with binsRolledBack := counters.binsRolledBack + 1 }
      { activity with binsRolledBack := activity.binsRolledBack + 1 }

end Migration

section Drain

/-- A bin that is completed is entered once, whatever became of it. -/
def EntersBin (counters : Counters) (queued entries : Nat) (activity noted : Activation)
    (depot : Depot) : Prop :=
  ∃ after, Completes counters activity after noted ∧ depot.Books after queued entries

variable {bin : BinId}

theorem giveUp_books (activity : Activation) :
    (giveUp bin activity).Meets (Books counters queued entries)
      (fun noted depot => EntersBin counters queued entries activity noted depot)
      fun _ _ => True := by
  have discarded : (discard bin).Keeps (Books counters queued entries) :=
    (Act.Keeps.read _).bind fun _ => (onFlow_books _).bind fun _ => mark_books bin _
  exact discarded.answering.bind fun _ => (count_books _).bind fun _ =>
    Act.Meets.pure fun _ books => ⟨_, .rolledBack, books⟩

theorem deliver_books (relationship : String) :
    (deliver bin relationship).Keeps (Books counters queued entries) :=
  (Act.Keeps.read _).bind fun _ => (onFlow_books _).bind fun _ => onFlow_books _

theorem finalise_books (outcome : Option Outcome) :
    (finalise bin outcome).Keeps (Books counters queued entries) := by
  cases outcome with
  | none => exact Act.Keeps.fail _
  | some outcome =>
      unfold finalise
      dsimp only
      split
      · refine (Act.Keeps.read _).bind fun held => ?_
        split
        · exact Act.Keeps.pure _
        · exact Act.Keeps.fail _
      · refine Act.Keeps.bind ?_ fun _ => deliver_books _
        exact (Act.Keeps.read _).bind fun _ => Act.Keeps.forEach fun _ _ =>
          (onFlow_books _).bind fun _ => Act.Keeps.pure _

theorem settle_books (answer : Except Fault (Option Outcome)) (activity : Activation) :
    (settle bin answer activity).Meets (Books counters queued entries)
      (fun noted depot => EntersBin counters queued entries activity noted depot)
      fun _ _ => True := by
  have marked : (mark bin .processed).Meets (Books counters queued entries)
      (fun _ => Books counters queued entries) fun _ _ => True :=
    (mark_books bin .processed).answering
  unfold settle
  split
  · rename_i outcome
    refine (finalise_books outcome).attempt.answering.bind fun finalised => ?_
    cases finalised with
    | ok =>
        exact marked.bind fun _ => (count_books _).bind fun _ =>
          Act.Meets.pure fun _ books => ⟨_, .processed, books⟩
    | error fault => exact giveUp_books activity
  · refine (deliver_books failureRelationship).attempt.answering.bind fun delivered => ?_
    cases delivered with
    | ok =>
        exact marked.bind fun _ => (count_books _).bind fun _ =>
          Act.Meets.pure fun _ books => ⟨_, .failed, books⟩
    | error fault =>
        dsimp only
        split
        · exact giveUp_books activity
        · exact Act.Meets.fail fun _ _ => trivial
  · exact giveUp_books activity

theorem handle_books (hooks : Hooks) (activity : Activation) :
    (handle hooks bin activity).Meets (Books counters queued entries)
      (fun noted depot => EntersBin counters queued entries activity noted depot)
      fun _ _ => True := by
  have noted : (noteHandled bin).Meets (Books counters queued entries)
      (fun _ => Books counters queued entries) fun _ _ => True :=
    Act.Meets.modify fun _ books => ⟨books.counters, books.queued, books.entries⟩
  exact noted.bind fun _ => (Script.run_books _).attempt.answering.bind fun answer =>
    settle_books answer activity

end Drain

section Activation

theorem migrateBins_entered :
    migrateBins.Meets (Entered start activity idle)
      (fun added => Entered start
        { activity with binsMigrated := activity.binsMigrated + added } idle)
      fun _ _ => True := by
  intro depot entered
  refine migrateBins_books.weaken (fun _ => id) ?_ (fun _ _ => id) _ depot.books_self
  rintro added reached ⟨aged, evicted, few, books⟩
  have migrated := entered.binsMigrated
  have queued := entered.queued
  have removed := entered.removed
  constructor <;> simp only [books.counters, books.queued, books.entries]
  case binsMigrated | queued | removed => omega
  exacts [entered.itemsBinned, entered.binsProcessed, entered.binsFailed,
    entered.binsRolledBack, entered.yields, entered.entries]

/-- A bin that was taken off the queue and completed leaves everything entered. -/
theorem Entered.completed {depot reached : Depot} {rest : Nat} {noted : Activation}
    (entered : Entered start activity idle depot) (first : depot.ready.length = rest + 1)
    (enters : EntersBin depot.counters rest depot.entries activity noted reached) :
    Entered start noted idle reached := by
  obtain ⟨after, completes, books⟩ := enters
  have queued := entered.queued
  have processed := entered.binsProcessed
  have failed := entered.binsFailed
  have rolledBack := entered.binsRolledBack
  cases completes
  all_goals
    constructor <;> simp only [books.counters, books.queued, books.entries]
    case binsProcessed | binsFailed | binsRolledBack | queued => omega
    exacts [entered.itemsBinned, entered.binsMigrated, entered.yields, entered.removed,
      entered.entries]

theorem drainBins_entered (hooks : Hooks) (queue : List BinId) (activity : Activation) :
    (drainBins hooks queue activity).Meets
      (fun depot => Entered start activity idle depot ∧ depot.ready.length = queue.length)
      (fun noted => Entered start noted idle) fun _ _ => True := by
  induction queue generalizing activity with
  | nil => exact Act.Meets.pure fun _ => And.left
  | cons bin rest ih =>
      rintro depot ⟨entered, same⟩
      have handled : (handle hooks bin activity).Meets
          (Books depot.counters rest.length depot.entries)
          (fun noted reached => Entered start noted idle reached ∧
            reached.ready.length = rest.length) fun _ _ => True :=
        (handle_books hooks activity).weaken (fun _ => id)
          (fun noted reached enters => ⟨entered.completed same enters, by
            obtain ⟨_, _, books⟩ := enters
            exact books.queued⟩) fun _ _ => id
      have dequeued : Books depot.counters rest.length depot.entries
          { depot with ready := rest } := ⟨rfl, rfl, rfl⟩
      exact handled.bind (fun noted => ih noted) _ dequeued

/-- An activation that is cancelled is not idle. -/
theorem isIdle_of_cancelled {report : Activation}
    (cancelled : report.cancelled = true) : report.isIdle = false := by
  simp [Activation.isIdle, cancelled]

theorem conclude_entered (report : Activation) :
    (conclude report).Meets (Entered start report 0)
      (fun report => Entered start report report.isIdle.toNat) fun _ _ => True := by
  unfold conclude
  split <;> rename_i isIdle
  · have counted : (count fun counters => { counters with yields := counters.yields + 1 }).Meets
        (Entered start report 0) (fun _ => Entered start report 1) fun _ _ => True :=
      Act.Meets.modify fun _ entered => ⟨entered.itemsBinned, entered.binsMigrated,
        entered.binsProcessed, entered.binsFailed, entered.binsRolledBack,
        congrArg (· + 1) entered.yields, entered.queued, entered.removed, entered.entries⟩
    refine counted.bind fun _ => Act.Meets.pure fun _ entered => ?_
    rwa [isIdle]
  · refine Act.Meets.pure fun _ entered => ?_
    rwa [eq_false_of_ne_true isIdle]

/-- An activation that answers enters what it reports, and whether it was idle. -/
theorem activate_entered (answers : List Bool) :
    (engine.activate answers).Meets (Entered start {} 0)
      (fun report => Entered start report report.isIdle.toNat) fun _ _ => True := by
  refine (takeIn_entered answers).bind fun ⟨itemsBinned, unused⟩ => ?_
  simp only [Nat.zero_add]
  split
  · refine migrateBins_entered.bind fun binsMigrated => ?_
    have queue : (Act.read (·.ready)).Meets
        (Entered start { itemsBinned, binsMigrated } 0)
        (fun queue depot => Entered start { itemsBinned, binsMigrated } 0 depot ∧
          depot.ready.length = queue.length) fun _ _ => True :=
      Act.Meets.read fun _ entered => ⟨entered, rfl⟩
    have drained := queue.bind fun queue => drainBins_entered engine.hooks queue _
    simp only [Nat.zero_add]
    exact Act.Meets.bind drained conclude_entered
  · refine Act.Meets.pure fun _ entered => ?_
    rw [isIdle_of_cancelled rfl]
    exact ⟨entered.itemsBinned, entered.binsMigrated, entered.binsProcessed,
      entered.binsFailed, entered.binsRolledBack, entered.yields, entered.queued,
      entered.removed, entered.entries⟩

end Activation

section Runs

/-- What an event reports, if it is an activation; nothing if the activation fails. -/
def Event.reports? (engine : Engine) (depot : Depot) : Event → Option (List Activation)
  | .activate answers =>
      match (engine.activate answers depot).1 with
      | .ok report => some [report]
      | .error _ => none
  | _ => some []

/-- What the activations of a run report, in order, if none of them fails. -/
def reports? (engine : Engine) : Depot → List Event → Option (List Activation)
  | _, [] => some []
  | depot, event :: rest => do
      let first ← event.reports? engine depot
      let later ← reports? engine (event.perform engine depot) rest
      return first ++ later

/-- The counters agree with the reports of the activations, with the queue and with what
is in the bins. -/
structure Balanced (reports : List Activation) (depot : Depot) : Prop where
  itemsBinned : depot.counters.itemsBinned = (reports.map Activation.itemsBinned).sum
  binsMigrated : depot.counters.binsMigrated = (reports.map Activation.binsMigrated).sum
  binsProcessed : depot.counters.binsProcessed = (reports.map Activation.binsProcessed).sum
  binsFailed : depot.counters.binsFailed = (reports.map Activation.binsFailed).sum
  binsRolledBack :
    depot.counters.binsRolledBack = (reports.map Activation.binsRolledBack).sum
  yields : depot.counters.yields = reports.countP Activation.isIdle
  queued : depot.counters.unboundItems + depot.counters.binsMigrated =
    depot.counters.binsProcessed + depot.counters.binsFailed + depot.counters.binsRolledBack +
      depot.ready.length
  removed : depot.counters.binsAged + depot.counters.binsEvicted ≤ depot.counters.binsMigrated
  entries : depot.counters.itemsBinned = depot.bins.total Bin.entryCount

variable {reports : List Activation} {before after : Depot}

theorem Balanced.of_same (balanced : Balanced reports before)
    (counters : after.counters = before.counters) (ready : after.ready = before.ready)
    (bins : after.bins = before.bins) : Balanced reports after := by
  constructor <;> simp only [counters, ready, bins]
  exacts [balanced.itemsBinned, balanced.binsMigrated, balanced.binsProcessed,
    balanced.binsFailed, balanced.binsRolledBack, balanced.yields, balanced.queued,
    balanced.removed, balanced.entries]

/-- What is entered of one more activation is added to the sums. -/
theorem Balanced.snoc {report : Activation} (balanced : Balanced reports before)
    (entered : Entered before report report.isIdle.toNat after) :
    Balanced (reports ++ [report]) after := by
  have queued := balanced.queued
  have removed := balanced.removed
  have entries := balanced.entries
  have grown : after.bins.total Bin.entryCount =
      before.bins.total Bin.entryCount + report.itemsBinned := entered.entries
  obtain ⟨itemsBinned, binsMigrated, binsProcessed, binsFailed, binsRolledBack, yields,
    nowQueued, nowRemoved, _⟩ := entered
  constructor
  case queued | removed | entries => omega
  case yields =>
    rw [yields, balanced.yields, List.countP_append, List.countP_singleton]
    cases report.isIdle <;> rfl
  all_goals simp only [List.map_append, List.map_cons, List.map_nil, List.sum_append,
    List.sum_cons, List.sum_nil, Nat.add_zero]
  · rw [itemsBinned, balanced.itemsBinned]
  · rw [binsMigrated, balanced.binsMigrated]
  · rw [binsProcessed, balanced.binsProcessed]
  · rw [binsFailed, balanced.binsFailed]
  · rw [binsRolledBack, balanced.binsRolledBack]

theorem Event.perform_balanced (event : Event) (isNoReset : event ≠ .reset)
    {more : List Activation} (reported : event.reports? engine before = some more)
    (balanced : Balanced reports before) :
    Balanced (reports ++ more) (event.perform engine before) := by
  have nothing : more = [] → ∀ {reached : Depot}, reached.counters = before.counters →
      reached.ready = before.ready → reached.bins = before.bins →
      Balanced (reports ++ more) reached := by
    rintro rfl reached counters ready bins
    rw [List.append_nil]
    exact balanced.of_same counters ready bins
  cases event with
  | activate answers =>
      have contract := @activate_entered before engine answers
      rcases run : engine.activate answers before with ⟨fault | report, reached⟩
      · simp only [reports?, run] at reported
        cases reported
      · simp only [reports?, run] at reported
        obtain rfl := Option.some.inj reported
        simp only [perform, Act.final, run]
        exact balanced.snoc (contract.of_ok (entered_start before) run)
  | reset => exact absurd rfl isNoReset
  | put | advance | applyPolicy | set =>
      exact nothing (Option.some.inj reported).symm rfl rfl rfl

theorem run_balanced {events : List Event} (noReset : .reset ∉ events)
    {later : List Activation} (reported : engine.reports? before events = some later)
    (balanced : Balanced reports before) :
    Balanced (reports ++ later) (run engine before events) := by
  induction events generalizing before reports later with
  | nil =>
      obtain rfl := Option.some.inj reported
      rwa [List.append_nil]
  | cons event rest ih =>
      rw [List.mem_cons, not_or] at noReset
      simp only [reports?, Option.bind_eq_bind, Option.bind_eq_some_iff] at reported
      obtain ⟨first, isFirst, last, isLast, all⟩ := reported
      obtain rfl := Option.some.inj all
      rw [← List.append_assoc]
      exact ih noReset.2 isLast
        (event.perform_balanced (Ne.symm noReset.1) isFirst balanced)

/-- After every run in which no activation failed and nothing was reset, the counters are
the sums over the reports, each queued bin was completed or waits, the aged and the
evicted bins are among those that migrated, and each binned item is in a bin. -/
theorem books_balance (engine : Engine) (flow : Flow) (clock : Moment) (policy : Policy)
    (events : List Event) (noReset : .reset ∉ events) (reports : List Activation)
    (reported : engine.reports? (opening flow clock policy) events = some reports) :
    Balanced reports (run engine (opening flow clock policy) events) := by
  have fresh : Balanced [] (opening flow clock policy) :=
    ⟨rfl, rfl, rfl, rfl, rfl, rfl, rfl, Nat.le_refl _, rfl⟩
  exact run_balanced noReset reported fresh

/-- The first activation stops with a bin queued, and the second one has three bins to
complete, each of them with another outcome. -/
theorem books_of_three_activations :
    let engine : Engine := { chunkSize := .int 3, hooks := {
      groupKey := fun item => .done (.text item.id)
      process := fun bin =>
        match bin with
        | 0 => .done (some {})
        | 1 => .fail .recoverable
        | _ => .fail .hookFailure } }
    let source : List Item := [{ id := "a" }, { id := "b" }, { id := "c" }, { id := "d" }]
    let start := opening { source, sinks := Flow.sinksFor [] } {} { maxBinCount := 2 }
    let events : List Event := [.activate [true], .activate [true, true], .activate [true]]
    let reports : List Activation := [
      { itemsBinned := 3, cancelled := true },
      { binsMigrated := 2, binsProcessed := 1, binsFailed := 1, binsRolledBack := 1 },
      { itemsBinned := 2, cancelled := true }]
    .reset ∉ events ∧ engine.reports? start events = some reports ∧
      Balanced reports (run engine start events) := by
  intro engine source start events reports
  have noReset : .reset ∉ events := by simp [events]
  have reported : engine.reports? start events = some reports := by decide +kernel
  exact ⟨noReset, reported, books_balance engine { source, sinks := Flow.sinksFor [] } {}
    { maxBinCount := 2 } events noReset reports reported⟩

end Runs

end Engine

end ItemBinning
