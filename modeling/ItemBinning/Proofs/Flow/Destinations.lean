import ItemBinning.Proofs.Flow.Course

/-!
# Deliveries to the last destinations

A delivery reads the destinations and the versions that a session keeps, and these are what
the courses of its items lead to.  So it brings each held item to the sink that it was routed
to last, as all calls together made it, and fails just when one of them was never routed.
-/

namespace ItemBinning.Flow

variable {flow before after : Flow} {number : SessionId} {courses : String → Option Course}
  {id : String}

/-- Some item that the session holds was never routed on its course. -/
def Strands (flow : Flow) (number : SessionId) (courses : String → Option Course) : Prop :=
  ∃ id ∈ (flow.session number).ids, ∃ course, courses id = some course ∧
    course.relationships = []

/-- A session delivered what it held: each sink has received the items whose courses end
there, in the order in which they were held, and nothing else changed. -/
structure Delivers (before : Flow) (number : SessionId) (courses : String → Option Course)
    (after : Flow) : Prop where
  sinks : after.sinks = before.sinks.mapValues fun relationship received =>
    received ++ (before.session number).ids.filterMap fun id =>
      (courses id).bind (·.receivedBy relationship)
  source : after.source = before.source
  emptied : after.session number =
    { commits := (before.session number).commits + 1
      rollbacks := (before.session number).rollbacks }
  others : ∀ other, other ≠ number → after.session other = before.session other

/-- A session has nothing to deliver and nothing to return. -/
structure Drained (flow : Flow) (number : SessionId) : Prop where
  delivers : ∃ reached, commit number flow = (.ok (), reached) ∧ flow.SameEnds reached
  returns : ∃ reached, rollBack number flow = (.ok (), reached) ∧ flow.SameEnds reached

theorem Delivers.drained (delivers : before.Delivers number courses after) :
    after.Drained number where
  delivers := by
    rcases commit_cases number after with ⟨incomplete, _⟩ | ⟨_, run⟩
    · rw [delivers.emptied] at incomplete
      exact absurd rfl incomplete
    · refine ⟨_, run, rfl, ?_⟩
      have nothing : ∀ relationship, (after.session number).routedTo relationship = [] := by
        rw [delivers.emptied]
        exact fun _ => rfl
      unfold delivered
      simp only [sinks_setSession, nothing, List.append_nil, Table.mapValues_self]
  returns := by
    refine ⟨_, rollBack_eq number after, ?_, rfl⟩
    change (after.session number).pulled.values ++ after.source = after.source
    rw [delivers.emptied]
    rfl

theorem Follows.delivers (follows : flow.Follows courses) (number : SessionId) :
    flow.Delivers number courses (flow.delivered number) where
  sinks := by
    unfold delivered
    simp only [sinks_setSession, (follows number).routedTo]
  source := rfl
  emptied := session_setSession_self _ _ _
  others _ := session_delivered_of_ne flow

theorem Follows.unrouted_iff (follows : flow.Follows courses)
    (held : id ∈ (flow.session number).ids) :
    (flow.session number).destinations.find? id = none ↔
      ∃ course, courses id = some course ∧ course.relationships = [] := by
  obtain ⟨course, isCourse, bears⟩ := follows number id held
  rw [bears.destination, course.destination_eq_none_iff, isCourse]
  simp

/-- Whatever sessions did with items whose ids are distinct, every held item has a course.
A delivery fails just when some held item was never routed on its course, and then changes
nothing.  Otherwise it brings every held item, in the version that its course leads to, to
the sink that it was routed to last, and leaves the session with nothing. -/
theorem delivers_to_last_destinations {source : List Item} (sinks : Table String (List Item))
    {operations : List Operation} (number : SessionId)
    (distinct : ((source ++ operations.flatMap Operation.given).map Item.id).Nodup) :
    let flow := Operation.run { source, sinks } operations
    let courses := Operation.courses { source, sinks } (fun _ => none) operations
    (∀ id ∈ (flow.session number).ids, ∃ course, courses id = some course ∧
      course.version.id = id ∧
      ∀ name, course.version.attributes.find? name =
        (course.attributes.reverse.findSome? (·.find? name)).or
          (course.pulled.attributes.find? name)) ∧
    ((∃ fault reached, commit number flow = (.error fault, reached)) ↔
      flow.Strands number courses) ∧
    (∀ fault reached, commit number flow = (.error fault, reached) →
      fault.kind = .session ∧ reached = flow) ∧
    (¬ flow.Strands number courses →
      (∀ id ∈ (flow.session number).ids, ∃ course, courses id = some course ∧
        ∃ relationship ∈ sinks.keys, course.destination = some relationship) ∧
      ∃ reached, commit number flow = (.ok (), reached) ∧
        flow.Delivers number courses reached ∧ reached.Drained number) := by
  intro flow courses
  have charted : flow.Charted sinks.keys _ courses := (Charted.start source sinks).run distinct
  have follows := charted.follows
  have coherent := charted.outstanding.coherent.sessions number
  have strands : ∀ id ∈ (flow.session number).ids,
      (flow.session number).destinations.find? id = none → flow.Strands number courses :=
    fun id held unrouted => ⟨id, held, (follows.unrouted_iff held).1 unrouted⟩
  refine ⟨?version, ?_⟩
  case version =>
    intro id held
    obtain ⟨course, isCourse, bears⟩ := follows number id held
    exact ⟨course, isCourse, coherent.currentId bears.current, course.find?_version⟩
  have ends := commit_ends flow number
  rcases run : commit number flow with ⟨outcome, reached⟩
  rw [run] at ends
  cases ends with
  | refused held unrouted =>
      have stranded := strands _ held unrouted
      refine ⟨⟨fun _ => stranded, fun _ => ⟨_, _, rfl⟩⟩, ?_,
        fun notStranded => absurd stranded notStranded⟩
      rintro fault reached ⟨⟩
      exact ⟨rfl, rfl⟩
  | delivered complete =>
      have notStranded : ¬ flow.Strands number courses := by
        rintro ⟨id, held, never⟩
        obtain ⟨relationship, destination⟩ := complete id held
        rw [(follows.unrouted_iff held).2 never] at destination
        cases destination
      refine ⟨⟨nofun, fun stranded => absurd stranded notStranded⟩, nofun,
        fun _ => ⟨?_, ?_⟩⟩
      · intro id held
        obtain ⟨course, isCourse, bears⟩ := follows number id held
        obtain ⟨relationship, destination⟩ := complete id held
        exact ⟨course, isCourse, relationship, (coherent.routed id relationship destination).2,
          bears.destination.symm.trans destination⟩
      · have delivers := follows.delivers number
        exact ⟨_, rfl, delivers, delivers.drained⟩

/-- Of three items two are handed over, and one of them is routed elsewhere there by a call
that fails at the next item.  The session that has both delivers each to the sink named last,
with the mark that was put on last, while the other session cannot deliver the third. -/
theorem delivered_after_change_of_course :
    let marked (text : String) : Attributes := Table.ofList [("mark", .text text)]
    let source : List Item := [{ id := "a" }, { id := "b" }, { id := "c" }]
    let operations : List Operation :=
      [.openSession, .openSession, .pull 0 (.int 3), .annotate 0 { id := "a" } (marked "first"),
        .route 0 [{ id := "b" }, { id := "a" }] (.text "failure"),
        .migrate 0 1 [{ id := "a" }, { id := "b" }],
        .route 1 [{ id := "a" }, { id := "c" }, { id := "b" }] (.text "success"),
        .annotate 1 { id := "a" } (marked "second")]
    let flow := Operation.run { source, sinks := sinksFor [] } operations
    let courses := Operation.courses { source, sinks := sinksFor [] } (fun _ => none) operations
    let received (name : String) (reached : Flow) :=
      (reached.sinks.find? name).map (·.map fun item =>
        (item.id, (item.attributes.find? "mark").map Value.display))
    ((source ++ operations.flatMap Operation.given).map Item.id).Nodup ∧
      (∃ reached, commit 1 flow = (.ok (), reached) ∧ flow.Delivers 1 courses reached ∧
        reached.Drained 1 ∧ received "success" reached = some [("a", some "second")] ∧
        received "failure" reached = some [("b", none)]) ∧
      ∃ fault, commit 0 flow = (.error fault, flow) := by
  intro marked source operations flow courses received
  have distinct : ((source ++ operations.flatMap Operation.given).map Item.id).Nodup := by
    decide +kernel
  have first := @delivers_to_last_destinations source (sinksFor []) operations 0 distinct
  have second := @delivers_to_last_destinations source (sinksFor []) operations 1 distinct
  refine ⟨distinct, ?_, ?_⟩
  · have routed : ∀ id ∈ (flow.session 1).ids,
        (courses id).map (·.relationships) ≠ some [] := by decide +kernel
    have complete : ¬ flow.Strands 1 courses := by
      rintro ⟨id, held, course, isCourse, never⟩
      refine routed id held ?_
      rw [isCourse, Option.map_some, never]
    obtain ⟨_, reached, run, delivers, drained⟩ := second.2.2.2 complete
    refine ⟨reached, run, delivers, drained, ?_, ?_⟩
    all_goals
      unfold received
      rw [delivers.sinks]
      decide +kernel
  · have never : (courses "c").map (·.relationships) = some [] := by decide +kernel
    obtain ⟨course, isCourse, unrouted⟩ := Option.map_eq_some_iff.1 never
    have stranded : flow.Strands 0 courses :=
      ⟨"c", by decide +kernel, course, isCourse, unrouted⟩
    obtain ⟨fault, reached, run⟩ := first.2.1.2 stranded
    obtain ⟨_, same⟩ := first.2.2.1 fault reached run
    exact ⟨fault, run.trans (congrArg (Prod.mk _) same)⟩

end ItemBinning.Flow
