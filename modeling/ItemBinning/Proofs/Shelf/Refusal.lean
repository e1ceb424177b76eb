import ItemBinning.Proofs.Flow.Operations
import ItemBinning.Proofs.Shelf.Arrangement
import ItemBinning.Shelf.Offer

/-!
# When an offer is refused

Placing an item fails where values cannot be compared or added, where the session does not
hold the item, and where a bin is closed.  So an offer is refused for its thresholds just
if they are inconsistent.
-/

namespace ItemBinning

/-- A fault of measuring an item. -/
def Fault.OfMeasuring : Fault → Prop
  | .wrongType | .overflow => True
  | _ => False

/-- A fault of placing an item. -/
def Fault.OfPlacing : Fault → Prop
  | .wrongType | .overflow | .notHeld _ _ | .closedBin _ => True
  | _ => False

variable {fault : Fault}

theorem Fault.OfMeasuring.placing (measuring : fault.OfMeasuring) : fault.OfPlacing := by
  unfold OfMeasuring at measuring
  split at measuring
  · trivial
  · trivial
  · exact measuring.elim

theorem Fault.OfPlacing.ne_inconsistent {issues : List Inconsistency}
    (placing : fault.OfPlacing) : fault ≠ .inconsistentPolicy issues := by
  rintro rfl
  exact placing

namespace Value

theorem stands_error {first other : Value} {orders : List Ordering}
    (failed : first.stands other orders = .error fault) : fault = .wrongType := by
  unfold stands at failed
  split at failed <;> cases failed
  rfl

theorem limits_error {limit : Value} {test : Value → Except Fault Bool}
    (tested : ∀ given, test given = .error fault → fault.OfMeasuring)
    (failed : limit.limits test = .error fault) : fault.OfMeasuring := by
  unfold limits at failed
  split at failed
  · cases failed
  · exact tested _ failed

end Value

section Bind

variable {α β : Type} {first : Except Fault α} {next : α → Except Fault β}

theorem bind_ok {answer : β} (answered : first >>= next = .ok answer) :
    ∃ value, first = .ok value ∧ next value = .ok answer := by
  cases first with
  | error => cases answered
  | ok value => exact ⟨value, rfl, answered⟩

theorem bind_error (failed : first >>= next = .error fault) :
    first = .error fault ∨ ∃ value, first = .ok value ∧ next value = .error fault := by
  cases first with
  | error =>
      cases failed
      exact .inl rfl
  | ok value => exact .inr ⟨value, rfl, failed⟩

end Bind

namespace Bin

theorem sizeWith_error {bin : Bin} {item : Item} (failed : bin.sizeWith item = .error fault) :
    fault.OfMeasuring := by
  unfold sizeWith at failed
  split at failed
  · cases failed
    trivial
  · split at failed <;> cases failed
    trivial

theorem turnsDown_error {bin : Bin} {item : Item} (failed : bin.turnsDown item = .error fault) :
    fault.OfMeasuring := by
  have standing {first other : Value} {orders : List Ordering}
      (failed : first.stands other orders = .error fault) : fault.OfMeasuring :=
    Value.stands_error failed ▸ trivial
  rcases bind_error failed with reached | ⟨full, _, overflows⟩
  · exact Value.limits_error (fun _ => standing) reached
  · split at overflows
    · cases overflows
    · refine Value.limits_error (fun _ above => ?_) overflows
      rcases bind_error above with size | ⟨total, _, stands⟩
      · exact sizeWith_error size
      · exact standing stands

end Bin

namespace Flow

theorem migrate_faults (source target : SessionId) (items : List Item) :
    (migrate source target items).Meets (fun _ => True) (fun _ _ => True)
      fun fault _ => fault.OfPlacing := by
  unfold migrate
  split
  · exact Act.Meets.pure fun _ _ => trivial
  · refine Act.Meets.forEach fun item _ => Act.Meets.of_runs (fun _ _ _ _ _ => trivial) ?_
    intro flow fault reached _ run
    rcases handOver_cases source target item flow with ⟨_, failed⟩ | ⟨_, _, handed⟩
    · rw [failed] at run
      cases run
      trivial
    · rw [handed] at run
      cases run

end Flow

namespace Shelf

open Depot

/-- The act fails by faults of placing only. -/
abbrev Places {α : Type} (act : Act Depot α) : Prop :=
  act.Meets (fun _ => True) (fun _ _ => True) fun fault _ => fault.OfPlacing

section Places

variable {α β : Type} {act : Act Depot α}

theorem places_bind {next : α → Act Depot β} (first : Places act)
    (second : ∀ answer, Places (next answer)) : Places (act >>= next) :=
  Act.Meets.bind first second

theorem places_pure (value : α) : Places (pure value) :=
  Act.Meets.pure fun _ _ => trivial

theorem places_read (part : Depot → α) : Places (Act.read part) :=
  Act.Meets.read fun _ _ => trivial

theorem places_modify (change : Depot → Depot) : Places (Act.modify change) :=
  Act.Meets.modify fun _ _ => trivial

theorem places_ofExcept {result : Except Fault α}
    (faults : ∀ fault, result = .error fault → fault.OfPlacing) :
    Places (Act.ofExcept result) :=
  Act.Meets.look (fun _ _ _ _ => trivial) fun _ fault _ => faults fault

theorem places_not_inconsistent (places : Places act) (depot : Depot)
    (issues : List Inconsistency) : (act depot).1 ≠ .error (.inconsistentPolicy issues) := by
  intro refused
  rcases @Act.Meets.outcome _ _ _ _ _ _ places depot trivial with
    ⟨_, _, run, _⟩ | ⟨fault, _, run, placing⟩ <;> rw [run] at refused
  · cases refused
  · exact placing.ne_inconsistent (Except.error.inj refused)

end Places

theorem places_takeInto (bin : BinId) (item : Item) (session : SessionId) :
    Places (takeInto bin item session) :=
  places_bind (places_read _) fun _ =>
    places_bind (onFlow_meets (Flow.migrate_faults _ _ _)) fun _ =>
      places_bind (places_modify _) fun _ =>
        places_bind (places_ofExcept fun _ failed => (Bin.sizeWith_error failed).placing)
          fun _ => places_modify _

theorem places_offerTo (bin : BinId) (item : Item) (session : SessionId) :
    Places (offerTo bin item session) := by
  refine places_bind (places_read _) fun held => ?_
  split
  · refine places_bind (places_ofExcept fun _ failed => (Bin.turnsDown_error failed).placing)
      fun full => ?_
    split
    · exact places_bind (places_modify _) fun _ => places_pure _
    · refine places_bind (places_modify _) fun _ => ?_
      exact places_bind (places_takeInto _ _ _) fun _ => places_pure _
  · exact Act.Meets.fail fun _ _ => trivial

theorem places_offerToFirst (item : Item) (session : SessionId) (bins : List BinId) :
    Places (offerToFirst item session bins) := by
  induction bins with
  | nil => exact places_pure _
  | cons bin rest ih =>
      refine places_bind (places_offerTo _ _ _) fun taken => ?_
      split
      · exact places_pure _
      · exact ih

theorem places_openBinFor (group : Value) (key : Key) (item : Item) (session : SessionId) :
    Places (openBinFor group key item session) := by
  refine places_bind (places_read _) fun bounds => ?_
  refine places_bind (fun _ _ => trivial : Places (onFlow Flow.openSession)) fun owner => ?_
  refine places_bind (fun _ _ => trivial : Places (createBin owner bounds group)) fun bin => ?_
  refine places_bind (places_offerTo _ _ _) fun taken => ?_
  split
  · exact places_bind (places_modify _) fun _ => places_pure _
  · exact places_pure _

theorem places_place (group : Value) (key : Key) (item : Item) (session : SessionId) :
    Places (place group key item session) := by
  refine places_bind (places_read _) fun bins => ?_
  refine places_bind (places_offerToFirst _ _ _) fun taken => ?_
  split
  · exact places_pure _
  · have asks : Places (askShelf Shelf.isAtCapacity) :=
      Act.Meets.look (fun _ _ _ _ => trivial) fun _ _ _ failed =>
        Value.stands_error failed ▸ trivial
    refine places_bind asks fun full => ?_
    split
    · exact places_pure _
    · exact places_openBinFor _ _ _ _

theorem places_placeAll (group : Value) (key : Key) (session : SessionId) (items : List Item) :
    Places (placeAll group key session items) := by
  induction items with
  | nil => exact places_pure _
  | cons item rest ih =>
      refine places_bind (places_place _ _ _ _) fun placed => ?_
      exact places_bind ih fun unbound => places_pure _

theorem issueIf_error {found : Except Fault Bool} {issue : Inconsistency}
    (failed : Thresholds.issueIf found issue = .error fault) : found = .error fault := by
  cases found with
  | error =>
      cases failed
      rfl
  | ok => cases failed

/-- Comparing thresholds with each other fails where they cannot be compared. -/
theorem inconsistencies_error {thresholds : Thresholds}
    (failed : thresholds.inconsistencies = .error fault) : fault.OfPlacing := by
  have standing {first other : Value} {orders : List Ordering} {issue : Inconsistency}
      (failed : Thresholds.issueIf (first.stands other orders) issue = .error fault) :
      fault.OfPlacing :=
    Value.stands_error (issueIf_error failed) ▸ trivial
  have limiting {limit other : Value} {orders : List Ordering} {issue : Inconsistency}
      (failed : Thresholds.issueIf (limit.limits (·.stands other orders)) issue = .error fault) :
      fault.OfPlacing :=
    (Value.limits_error (fun _ below => Value.stands_error below ▸ trivial)
      (issueIf_error failed)).placing
  rcases bind_error failed with sizes | ⟨_, _, failed⟩
  · exact limiting sizes
  rcases bind_error failed with entries | ⟨_, _, failed⟩
  · exact limiting entries
  rcases bind_error failed with noEntries | ⟨_, _, failed⟩
  · exact limiting noEntries
  rcases bind_error failed with noBins | ⟨_, _, failed⟩
  · exact standing noBins
  · cases failed

/-- An offer is refused for its thresholds just if they are inconsistent. -/
theorem offer_refused_iff (group : Value) (items : List Item) (session : SessionId)
    (depot : Depot) (issues : List Inconsistency) :
    (offer group items session depot).1 = .error (.inconsistentPolicy issues) ↔
      depot.shelf.thresholds.inconsistencies = .ok issues ∧ issues ≠ [] := by
  rcases asked : depot.shelf.thresholds.inconsistencies with fault | found
  · have run : offer group items session depot = (.error fault, depot) :=
      Act.bind_of_error (congrArg (·, depot) asked) _
    rw [run]
    exact ⟨fun same => absurd (Except.error.inj same) (inconsistencies_error asked).ne_inconsistent,
      nofun⟩
  · have answer : askShelf (·.thresholds.inconsistencies) depot = (.ok found, depot) :=
      congrArg (·, depot) asked
    rw [offer, Act.bind_of_ok answer]
    cases found with
    | cons issue rest =>
        refine ⟨fun same => ?_, fun same => ?_⟩
        · cases same
          exact ⟨rfl, List.cons_ne_nil _ _⟩
        · cases same.1
          rfl
    | nil =>
        refine ⟨?_, fun same => absurd (Except.ok.inj same.1).symm same.2⟩
        rcases group.key? with _ | key
        · exact fun refused => absurd (Except.error.inj refused) nofun
        · exact fun refused =>
            absurd refused (places_not_inconsistent (places_placeAll group key session items) _ _)

end Shelf

end ItemBinning
