import Mathlib.Data.List.Induction
import ItemBinning.Proofs.Engine.Upkeep

/-!
# What open bins hold

Over a whole run, open bins hold what hooks gave their group and what fits into them, and
they keep the bounds that were in force when they were created.  A run takes chunks, and
each of them leads from the state in which it is pulled to that in which it is binned or
was returned; what a bin began with and what it was given is read off these steps.
-/

namespace ItemBinning

namespace Flow

/-- A flow in which some sessions were opened in advance. -/
def starting (source : List Item) (relationships : List String) (aside : SessionId) : Flow where
  source
  sinks := sinksFor relationships
  sessions := ⟨Array.replicate aside {}⟩

variable {source : List Item} {relationships : List String} {aside : SessionId}

theorem next_starting : (starting source relationships aside).sessions.next = aside := by
  simp [starting, Slots.next]

theorem session_starting (session : SessionId) :
    (starting source relationships aside).session session = {} := by
  simp only [starting, Flow.session, Slots.get, Array.getElem?_replicate]
  split <;> rfl

/-- Opening sessions in advance leaves what flows carry. -/
theorem Carried.starting {property : Flow → Prop} (carried : Carried property)
    (holds : property { source, sinks := sinksFor relationships }) :
    property (starting source relationships aside) := by
  induction aside with
  | zero => exact holds
  | succ aside ih =>
      have opened := carried.opened _ ih
      unfold Flow.starting at opened ⊢
      rwa [Array.replicate_succ]

end Flow

namespace Engine

open Depot

section Intake

variable {engine : Engine} {depot : Depot}

/-- With one more answer, an intake takes one more chunk or none. -/
theorem intake_snoc (answers : List Bool) (answer : Bool) :
    (intake engine (answers ++ [answer])).final depot = (intake engine answers).final depot ∨
      (intake engine (answers ++ [answer])).final depot =
        (takeChunk engine).final ((intake engine answers).final depot) := by
  have onward (rest : List Bool) (binned : Nat) (reached : Depot) :
      (intake engine rest >>= fun later => pure (binned + later.1, later.2)).final reached =
        (intake engine rest).final reached := by
    unfold Act.final
    rcases later : intake engine rest reached with ⟨fault | result, after⟩
    · rw [Act.bind_of_error later]
    · rw [Act.bind_of_ok later]
      rfl
  induction answers generalizing depot with
  | nil =>
      rw [List.nil_append]
      cases intake_answered engine answer depot with
      | refused _ _ run | full _ run | stopped _ run =>
          refine .inl ?_
          unfold Act.final
          rw [run]
          rfl
      | failed _ _ _ taken run | exhausted _ _ taken run | binned _ _ _ _ taken run =>
          have final := congrArg Prod.snd (run [])
          exact .inr (final.trans (congrArg Prod.snd taken).symm)
  | cons scheduled rest ih =>
      rw [List.cons_append]
      cases intake_answered engine scheduled depot with
      -- the intake went no further than this answer
      | refused _ _ run | full _ run | stopped _ run | failed _ _ _ _ run
      | exhausted _ _ _ run =>
          refine .inl ?_
          unfold Act.final
          rw [run, run]
      | binned binned reached _ _ _ run =>
          have first (rest : List Bool) : (intake engine (scheduled :: rest)).final depot =
              (intake engine rest).final reached :=
            (congrArg Prod.snd (run rest)).trans (onward rest binned reached)
          rw [first, first]
          exact ih

/-- The intake runs, or it is skipped, whatever its schedule answers. -/
theorem takeIn_final (engine : Engine) (depot : Depot) :
    (∀ answers, (takeIn engine answers).final depot = (intake engine answers).final depot) ∨
      ∀ answers, (takeIn engine answers).final depot = depot := by
  unfold takeIn Act.final
  rcases capacity : depot.shelf.hasRoom (depot.shelf.binCount + depot.ready.length) with
    fault | room
  · have asked : hasCapacity depot = (.error fault, depot) := congrArg (·, depot) capacity
    refine .inr fun answers => ?_
    rw [Act.bind_of_error asked]
  · have asked : hasCapacity depot = (.ok room, depot) := congrArg (·, depot) capacity
    cases room with
    | true =>
        refine .inl fun answers => ?_
        rw [Act.bind_of_ok asked]
        rfl
    | false =>
        refine .inr fun answers => ?_
        rw [Act.bind_of_ok asked]
        rfl

theorem takeIn_nil : (takeIn engine []).final depot = depot := by
  rcases takeIn_final engine depot with runs | skipped
  · exact runs []
  · exact skipped []

theorem takeIn_snoc (answers : List Bool) (answer : Bool) :
    (takeIn engine (answers ++ [answer])).final depot = (takeIn engine answers).final depot ∨
      (takeIn engine (answers ++ [answer])).final depot =
        (takeChunk engine).final ((takeIn engine answers).final depot) := by
  rcases takeIn_final engine depot with runs | skipped
  · rw [runs, runs]
    exact intake_snoc answers answer
  · rw [skipped, skipped]
    exact .inl rfl

end Intake

section History

variable {engine : Engine} {start : Depot} {history : List Event}

/-- In the course of a history a chunk was taken: with the next answer of its schedule, an
intake led from the first depot to the second, and taking a chunk does so too.  An intake
that takes no more chunks stays where it is, while taking one at least opens a session. -/
def TakesChunk (engine : Engine) (start : Depot) (history : List Event)
    (before after : Depot) : Prop :=
  ∃ earlier answers answer more later,
    history = earlier ++ .activate (answers ++ answer :: more) :: later ∧
    before = (takeIn engine answers).final (run engine start earlier) ∧
    after = (takeIn engine (answers ++ [answer])).final (run engine start earlier) ∧
    after = (takeChunk engine).final before

/-- The bin was created in the course of a history, with these bounds in force. -/
def Begun (engine : Engine) (start : Depot) (history : List Event) (bin : BinId)
    (bounds : Bounds) : Prop :=
  ∃ before after, TakesChunk engine start history before after ∧
    Born engine before after bin bounds

/-- In the course of a history the hooks answered with the version of an item, and gave it
a group of this key. -/
def Given (engine : Engine) (start : Depot) (history : List Event) (key : Key)
    (version : Item) : Prop :=
  ∃ before after, TakesChunk engine start history before after ∧
    (key, version) ∈ loads (engine.nextFindings before)

/-- What the chunks of a history begin and give is as it should be. -/
structure Due (engine : Engine) (start : Depot) (history : List Event) (terms : Terms) :
    Prop where
  begun : ∀ bin bounds, Begun engine start history bin bounds → terms.begun bin bounds
  given : ∀ key version, Given engine start history key version → terms.given key version

theorem TakesChunk.append {before after : Depot}
    (takes : TakesChunk engine start history before after) (more : List Event) :
    TakesChunk engine start (history ++ more) before after := by
  obtain ⟨earlier, answers, answer, others, later, rfl, isBefore, isAfter, isTaken⟩ := takes
  exact ⟨earlier, answers, answer, others, later ++ more, by simp, isBefore, isAfter, isTaken⟩

theorem Due.of_append {terms : Terms} {more : List Event}
    (due : Due engine start (history ++ more) terms) : Due engine start history terms where
  begun bin bounds isBegun := by
    obtain ⟨before, after, takes, born⟩ := isBegun
    exact due.begun bin bounds ⟨before, after, takes.append more, born⟩
  given key version isGiven := by
    obtain ⟨before, after, takes, gives⟩ := isGiven
    exact due.given key version ⟨before, after, takes.append more, gives⟩

end History

section Runs

variable {engine : Engine} {terms : Terms} {start : Depot} {known ids : List String}
  {events : List Event}

section Steps

variable (distinct : ids.Nodup) (behave : engine.hooks.Behave fun _ => False)
  (spare : engine.hooks.Spare terms.aside)
include distinct behave spare

/-- Each chunk that an intake takes keeps the bins well filled. -/
theorem takeIn_tended (tended : (run engine start events).Tended terms known ids)
    (answers rest : List Bool)
    (due : Due engine start (events ++ [.activate (answers ++ rest)]) terms) :
    Tended terms known ids ((takeIn engine answers).final (run engine start events)) := by
  -- the depot in which a chunk is pulled is the one that the earlier answers lead to
  induction answers using List.reverseRecOn generalizing rest with
  | nil => rwa [takeIn_nil]
  | append_singleton answers answer ih =>
      have sound := ((accountedRules distinct behave).takeIn (answers ++ [answer])).final
        tended.sound
      rw [List.append_assoc] at due
      have before := ih ([answer] ++ rest) due
      rcases @takeIn_snoc engine (run engine start events) answers answer with same | taken
      · rwa [same]
      · refine ⟨sound, ?_⟩
        have takes : TakesChunk engine start (events ++ [.activate (answers ++ answer :: rest)])
            ((takeIn engine answers).final (run engine start events))
            ((takeIn engine (answers ++ [answer])).final (run engine start events)) :=
          ⟨events, answers, answer, rest, [], rfl, rfl, rfl, taken⟩
        rw [taken] at takes ⊢
        apply takeChunk_stocks distinct behave spare before
        · exact fun bin bounds born => due.begun bin bounds ⟨_, _, takes, born⟩
        · exact fun load gives => due.given load.1 load.2 ⟨_, _, takes, gives⟩

theorem activate_tended {depot : Depot} {answers : List Bool}
    (tended : Tended terms known ids ((takeIn engine answers).final depot)) :
    Tended terms known ids ((engine.activate answers).final depot) := by
  have taken : (takeIn engine answers).Meets (· = depot) (fun _ => Tended terms known ids)
      fun _ => Tended terms known ids := by
    apply Act.Meets.of_final
    rintro _ rfl
    exact tended
  rw [activate_eq]
  refine Act.Meets.final (taken.bind fun result => ?_) rfl
  dsimp only
  split
  · exact afterIntake_tended distinct behave spare _
  · exact Act.Keeps.pure _

theorem Event.perform_stocks (event : Event)
    (tended : (run engine start events).Tended terms known ids)
    (due : Due engine start (events ++ [event]) terms) :
    Stocked terms (event.perform engine (run engine start events)) := by
  cases event with
  | activate answers =>
      apply Tended.stocked
      apply activate_tended distinct behave spare
      apply takeIn_tended distinct behave spare tended answers []
      rwa [List.append_nil]
  | reset =>
      exact tended.stocked.intact (reset_intact tended.sound)
  -- the other events touch neither bins nor sessions
  | put | advance | applyPolicy | set =>
      exact tended.stocked.intact (.of_same rfl (Nat.le_refl _) (fun _ => id) (fun _ => id)
        fun _ _ => rfl)

end Steps

section Run

variable {past : Table String (List Item)} {items : List Item}

/-- Over a run of events the bins stay well filled. -/
theorem run_tended (behave : engine.hooks.Behave fun _ => False)
    (spare : engine.hooks.Spare terms.aside)
    (conserved : start.Sound (Flow.Conserved known past items) [])
    (stocked : start.Stocked terms)
    (distinct : ((items ++ events.flatMap Event.items).map Item.id).Nodup)
    (whole : ∀ item ∈ events.flatMap Event.items, item.HasWholeSize)
    (due : Due engine start events terms) :
    (run engine start events).Tended terms known
      ((items ++ events.flatMap Event.items).map Item.id) := by
  have sound := accounted_of_conserved (conserved_run behave conserved events whole) distinct
  refine ⟨sound, ?_⟩
  clear sound
  -- the ids that are accounted for grow with the events, so each step has its own
  induction events using List.reverseRecOn with
  | nil => exact stocked
  | append_singleton events event ih =>
      simp only [List.flatMap_append, ← List.append_assoc] at distinct whole
      have distinctBefore : ((items ++ events.flatMap Event.items).map Item.id).Nodup := by
        rw [List.map_append] at distinct
        exact distinct.of_append_left
      have wholeBefore (item : Item) (member : item ∈ events.flatMap Event.items) :=
        whole item (List.mem_append_left _ member)
      have sound := accounted_of_conserved (conserved_run behave conserved events wholeBefore)
        distinctBefore
      have before := ih distinctBefore wholeBefore due.of_append
      have performed := event.perform_stocks distinctBefore behave spare ⟨sound, before⟩ due
      unfold run at performed ⊢
      rwa [List.foldl_append]

/-- Over a run of events that is followed by an intake, the bins stay well filled. -/
theorem run_takeIn_stocks (behave : engine.hooks.Behave fun _ => False)
    (spare : engine.hooks.Spare terms.aside)
    (conserved : start.Sound (Flow.Conserved known past items) [])
    (stocked : start.Stocked terms)
    (distinct : ((items ++ events.flatMap Event.items).map Item.id).Nodup)
    (whole : ∀ item ∈ events.flatMap Event.items, item.HasWholeSize) {answers : List Bool}
    (due : Due engine start (events ++ [.activate answers]) terms) :
    Stocked terms ((takeIn engine answers).final (run engine start events)) := by
  have tended := run_tended behave spare conserved stocked distinct whole due.of_append
  apply Tended.stocked
  apply takeIn_tended distinct behave spare tended answers []
  rwa [List.append_nil]

/-- What bins were created with at some time of a run they have to its end. -/
theorem run_lasting {aside : SessionId} (behave : engine.hooks.Behave fun _ => False)
    (spare : engine.hooks.Spare aside)
    (conserved : start.Sound (Flow.Conserved known past items) [])
    (stocked : start.Stocked (.lenient start aside)) {earlier later : List Event}
    (distinct : ((items ++ (earlier ++ later).flatMap Event.items).map Item.id).Nodup)
    (whole : ∀ item ∈ (earlier ++ later).flatMap Event.items, item.HasWholeSize)
    (answers : List Bool) :
    (run engine start earlier).Lasting
      ((takeIn engine answers).final (run engine start (earlier ++ later))) := by
  have due (origin start : Depot) (history : List Event) :
      Due engine start history (.lenient origin aside) :=
    ⟨fun _ _ _ => trivial, fun _ _ _ => trivial⟩
  rw [List.flatMap_append] at distinct whole
  rw [← List.append_assoc] at distinct
  have distinctEarlier : ((items ++ earlier.flatMap Event.items).map Item.id).Nodup := by
    rw [List.map_append] at distinct
    exact distinct.of_append_left
  have wholeEarlier (item : Item) (member : item ∈ earlier.flatMap Event.items) :=
    whole item (List.mem_append_left _ member)
  have wholeLater (item : Item) (member : item ∈ later.flatMap Event.items) :=
    whole item (List.mem_append_right _ member)
  have between := run_tended behave spare conserved stocked distinctEarlier wholeEarlier
    (due start start earlier)
  have again : Stocked (.lenient (run engine start earlier) aside) (run engine start earlier) :=
    { between.stocked with lasting := .refl _ }
  have reached := run_takeIn_stocks behave spare
    (conserved_run behave conserved earlier wholeEarlier) again distinct wholeLater
    (due _ _ (later ++ [.activate answers]))
  unfold run at reached ⊢
  rw [List.foldl_append]
  exact reached.lasting

end Run

end Runs

/-- While an engine is run, and between the chunks of an activation: bins keep what they
were created with, open bins began with the bounds that were in force, and they hold what
they were given: it fits into them, and their sessions hold just that.  A bin that was
queued because its item found no place holds one item. -/
theorem contents_after_run (engine : Engine) (aside : SessionId)
    (behave : engine.hooks.Behave fun _ => False) (spare : engine.hooks.Spare aside)
    (source : List Item) (relationships : List String) (clock : Moment) (policy : Policy)
    (events : List Event) (answers : List Bool)
    (distinct : ((source ++ events.flatMap Event.items).map Item.id).Nodup)
    (whole : ∀ item ∈ source ++ events.flatMap Event.items, item.HasWholeSize) :
    let start := opening (Flow.starting source relationships aside) clock policy
    let history := events ++ [.activate answers]
    let reached := (takeIn engine answers).final (run engine start events)
    (∀ earlier later, events = earlier ++ later → (run engine start earlier).Lasting reached) ∧
    (∀ bin ∈ reached.shelf.bins,
      Begun engine start history bin (reached.bin bin).bounds ∧
      WellFilled (Given engine start history) reached bin) ∧
    ∀ bin ∈ reached.ready, (reached.bin bin).reason = some .unbound →
      (reached.bin bin).entryCount = 1 ∧ (reached.binSession bin).ids.length = 1 := by
  intro start history reached
  have wholeLater (item : Item) (member : item ∈ events.flatMap Event.items) :=
    whole item (List.mem_append_right _ member)
  have conserved : start.Sound (Flow.Conserved (Flow.sinksFor relationships).keys
      start.flow.sinks source) [] := by
    refine sound_opening clock policy (Flow.Carried.starting
      ((Flow.tracked_conserved _ _).carried _) ⟨fun _ => ?_, Flow.extends_refl _⟩) ?_ ?_
    · exact Flow.accounted_start source relationships
    · apply Flow.Carried.starting (Flow.carried_everywhere fun _ _ => id)
      exact ⟨fun item member => whole item (List.mem_append_left _ member), nofun, nofun⟩
    · intro session
      rw [Flow.session_starting]
      rfl
  have starts (begun : BinId → Bounds → Prop) (given : Key → Item → Prop) :
      start.Stocked { origin := start, aside, begun, given } :=
    .of_empty (.refl start) (Nat.le_of_eq Flow.next_starting.symm) rfl rfl
  have stocked : reached.Stocked
      { origin := start
        aside
        begun := Begun engine start history
        given := Given engine start history } :=
    run_takeIn_stocks behave spare conserved (starts _ _) distinct wholeLater
      ⟨fun _ _ => id, fun _ _ => id⟩
  refine ⟨?_, fun bin onShelf => ?_, fun bin queued unbound => ?_⟩
  · rintro earlier later rfl
    exact run_lasting behave spare conserved (starts _ _) distinct wholeLater answers
  · exact ⟨stocked.begun bin onShelf, stocked.filled bin (.inl onShelf)⟩
  · have single := stocked.single bin queued unbound
    refine ⟨single, ?_⟩
    rw [(stocked.filled bin (.inr queued)).held, List.length_map]
    exact single

/-- Two items bring a narrow policy along and do not fit into it.  The processor takes the
items of every bin to a session that was opened in advance. -/
def narrowing : Engine where
  hooks :=
    { preprocess := fun item _ =>
        if item.id = "c" ∨ item.id = "e" then
          .call (.applyPolicy { maxSize := some 4 }) fun _ =>
            .done (some { item with size := .int 9 })
        else .done (some { item with size := .int 2 })
      groupKey := fun _ => .done .null
      process := fun bin => .look fun depot =>
        .call (.migrate (depot.bin bin).session 0 (depot.bin bin).contents) fun _ =>
          .done none }
  chunkSize := .int 2

theorem behave_narrowing : narrowing.hooks.Behave fun _ => False where
  preprocess item session := by
    dsimp only [narrowing]
    split
    · exact ⟨trivial, fun _ => trivial⟩
    · trivial
  groupKey _ := trivial
  process _ _ := ⟨trivial, fun _ => trivial⟩
  versions item session depot version reached _ _ run := by
    dsimp only [narrowing] at run
    split at run <;> cases run
    · exact ⟨9, rfl⟩
    · exact ⟨2, rfl⟩

theorem spare_narrowing : narrowing.hooks.Spare 1 where
  preprocess item session depot _ _ := by
    dsimp only [narrowing]
    split
    · exact ⟨fun _ => False.elim, trivial⟩
    · trivial
  groupKey _ _ _ := trivial
  process bin depot settled notOwned := by
    refine ⟨?_, trivial⟩
    rintro session (rfl | rfl)
    · exact notOwned
    · rintro ⟨other, stored, same⟩
      have opened := (settled other stored).1
      rw [same] at opened
      exact Nat.not_succ_le_zero 0 opened

theorem contents_after_narrowing :
    let source : List Item := [{ id := "a" }, { id := "b" }, { id := "c" }, { id := "d" }]
    let events : List Event :=
      [.activate [true, true, true, true], .put [{ id := "e" }, { id := "f" }]]
    let start := opening (Flow.starting source [] 1) {} { maxEntries := some 2 }
    let history := events ++ [.activate [true]]
    let reached := (takeIn narrowing [true]).final (run narrowing start events)
    ((reached.flow.session 0).ids = ["c", "a", "b", "d"] ∧ reached.shelf.bins = [5] ∧
      reached.ready = [6]) ∧
    (∀ earlier later, events = earlier ++ later →
      (run narrowing start earlier).Lasting reached) ∧
    (∀ bin ∈ reached.shelf.bins,
      Begun narrowing start history bin (reached.bin bin).bounds ∧
      WellFilled (Given narrowing start history) reached bin) ∧
    ∀ bin ∈ reached.ready, (reached.bin bin).reason = some .unbound →
      (reached.bin bin).entryCount = 1 ∧ (reached.binSession bin).ids.length = 1 := by
  intro source events start history reached
  have whole : ∀ item ∈ source ++ events.flatMap Event.items, item.HasWholeSize := by
    intro item member
    have size : ∀ item ∈ source ++ events.flatMap Event.items, item.size = .int 0 := by
      simp [source, events, Event.items]
    exact ⟨0, size item member⟩
  refine ⟨by decide +kernel, ?_⟩
  exact contents_after_run narrowing 1 behave_narrowing spare_narrowing source [] {}
    { maxEntries := some 2 } events [true] (by decide) whole

end Engine

end ItemBinning
