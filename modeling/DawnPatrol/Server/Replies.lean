import DawnPatrol.Server.Visits

/-!
# What visits are answered

Every visit that has ended has the answer of its destination, whatever the other
visits did in the meantime (`visits_are_answered`). In particular the index
lists events of one association, each at most once, and in a visit that was spared
faults all events that the association had when the visit began are among them. So
a copy that runs at the same time can only add events to the list.

A visit is spared when none of its statements fails. A query for a host fails when a
stored pattern is no regular expression, and then the visit is not.
-/

set_option autoImplicit false

namespace DawnPatrol.Server

open Foundation Go Api Postgres Execution Db Rails RailsDb Http Requests

/-! ## Answers -/

/-- The response of `http.NotFound`. -/
def notFoundResponse : Response where
  status := some 404
  headers := [("Content-Type", "text/plain; charset=utf-8"),
    ("X-Content-Type-Options", "nosniff")]
  body := "404 page not found\n"

/-- The association that the host of a visit resolves to. -/
def Visit.resolves (visit : Visit) (env : Environment) (st : Store) : Option AssociationRow :=
  Gorm.firstAssociation env.operator (.hostMatches visit.request.host) {} st

/-- The rows that the index may list: events of the association that the host resolves
to, each at most once, in any order. Those that were there when the visit began are
among them, unless a read failed. -/
structure Listed (env : Environment) (spared : Prop) (visit : Visit) (st : Store)
    (rows : List EventRow) : Prop where
  only : ∃ row, visit.resolves env st = some row ∧ rows.Subperm (Gorm.findEvents row.id st)
  complete : spared → ∀ row, visit.resolves env visit.origin = some row →
    (Gorm.findEvents row.id visit.origin).Subperm rows

/-- The answers that a visit may have. -/
inductive Replied (env : Environment) (spared : Prop) (visit : Visit) (st : Store) :
    Except PanicValue Unit → Response → Prop where
  | missing (nowhere : destination visit.request = .nowhere) :
      Replied env spared visit st (.ok ()) notFoundResponse
  | up (status : destination visit.request = .status) :
      Replied env spared visit st (.ok ()) { status := some 200, body := "ok" }
  | aborted (panic : destination visit.request = .panic) :
      Replied env spared visit st (.error stringIsNotError) {}
  | unnamed (copy : destination visit.request = .copy) (unnamed : visit.copies = none) :
      Replied env spared visit st (.ok ()) { status := some 400 }
  | copied {acronym : String} (copies : visit.copies = some acronym) :
      Replied env spared visit st (.ok ()) {}
  | copyFailed {acronym : String} (copies : visit.copies = some acronym) :
      Replied env spared visit st (.ok ()) { status := some 500 }
  | copyAborted {acronym : String} (copies : visit.copies = some acronym) :
      Replied env spared visit st (.error stringIsNotError) {}
  | listed (index : destination visit.request = .index) {rows : List EventRow} {jsonOut : String}
      (listed : Listed env spared visit st rows)
      (marshalled : marshal (rows.map (Gorm.scanEvent env.sessionOffset)) = .ok jsonOut) :
      Replied env spared visit st (.ok ())
        { status := some 200
          headers := [("Content-Type", "application/json")]
          body := Fmt.sprintf jsonOut }
  | unlisted (index : destination visit.request = .index)
      (cause : spared → visit.resolves env visit.origin = none ∨
        ∃ rows err, Listed env spared visit st rows ∧
          marshal (rows.map (Gorm.scanEvent env.sessionOffset)) = .error err) :
      Replied env spared visit st (.ok ()) { status := some 500 }

section Replied

variable {env : Environment} {spared : Prop} {visit : Visit} {st next : Store}

theorem Listed.grown {rows : List EventRow} (listed : Listed env spared visit st rows)
    (grown : Grown env st next) : Listed env spared visit next rows where
  only := by
    obtain ⟨row, resolves, among⟩ := listed.only
    have kept := (grown.findEvents row.id).sublist.subperm
    exact ⟨row, grown.resolves _ _ resolves, among.trans kept⟩
  complete := listed.complete

/-- An answer stays right while the store grows. -/
theorem Replied.grown {outcome : Except PanicValue Unit} {response : Response}
    (replied : Replied env spared visit st outcome response) (grown : Grown env st next) :
    Replied env spared visit next outcome response := by
  cases replied with
  | missing nowhere => exact .missing nowhere
  | up status => exact .up status
  | aborted panic => exact .aborted panic
  | unnamed copy unnamed => exact .unnamed copy unnamed
  | copied copies => exact .copied copies
  | copyFailed copies => exact .copyFailed copies
  | copyAborted copies => exact .copyAborted copies
  | listed index listed marshalled => exact .listed index (listed.grown grown) marshalled
  | unlisted index cause =>
      refine .unlisted index fun isSpared => (cause isSpared).imp_right ?_
      rintro ⟨rows, err, listed, failed⟩
      exact ⟨rows, err, listed.grown grown, failed⟩

end Replied

variable (env : Environment) (newRelicApp : Bool) (c : Circumstances)

/-- A visit promises to be answered. -/
def promises : Pool.Promises (serverContract env newRelicApp c) where
  post visit outcome s := IDsBelow s.shared.store ∧
    Replied env (c.spared visit) visit s.shared.store outcome (s.responses visit.id)
  apart visit other := visit.id ≠ other.id
  stable := by
    rintro visit other different before after step outcome ⟨below, replied⟩
    have grown := step.grown below
    exact ⟨grown.below, step.responses _ different ▸ replied.grown grown⟩
  stable_outside := by
    rintro visit before after ⟨rails, -, rfl⟩ outcome holds
    exact holds

section Handlers

variable {env newRelicApp c} {visit : Visit} {s : ServerWorld}

/-- What has been answered stays answered. -/
theorem Serves.replied (outcome : Except PanicValue Unit) (below : IDsBelow s.shared.store)
    (replied : Replied env (c.spared visit) visit s.shared.store outcome (s.responses visit.id)) :
    Serves env newRelicApp c visit (Pool.ended outcome)
      ((promises env newRelicApp c).post visit) s := by
  refine Serves.ended outcome below fun later grown kept => ⟨grown.below, ?_⟩
  exact kept ▸ replied.grown grown

/-- What the recovery around a handler makes of a panic. -/
def recovery (rval : PanicValue) : GoM Unit := do
  if rval.isError then
    perform (.capture (sprint rval))
    perform (.writeHeader 500)
  else raise stringIsNotError

/-- **The recovery of a panic** answers 500, or aborts the visit. -/
theorem recovery_serves (panic : PanicValue) (below : IDsBelow s.shared.store)
    (blank : s.responses visit.id = {})
    (failed : panic.isError = true →
      Replied env (c.spared visit) visit s.shared.store (.ok ()) { status := some 500 })
    (aborted : panic.isError = false →
      Replied env (c.spared visit) visit s.shared.store (.error stringIsNotError) {}) :
    Serves env newRelicApp c visit (recovery panic) ((promises env newRelicApp c).post visit)
      s := by
  rw [recovery]
  cases isError : panic.isError with
  | false =>
      rw [if_neg Bool.false_ne_true]
      exact Serves.replied (.error stringIsNotError) below (blank ▸ aborted isError)
  | true =>
      rw [if_pos rfl]
      refine Serves.call trivial below fun _ _ captured _ _ grown kept => ?_
      refine Serves.call trivial grown.below fun _ _ written _ _ further own => ?_
      have answered : written.responses visit.id = { status := some 500 } := by
        rw [own, kept, blank]
        rfl
      exact Serves.replied (.ok ()) further.below
        (answered ▸ (failed isError).grown (grown.trans further))

/-- Requests that lead nowhere. -/
theorem notFound_serves (nowhere : destination visit.request = .nowhere)
    (below : IDsBelow s.shared.store) (blank : s.responses visit.id = {}) :
    Serves env newRelicApp c visit (notFound visit.request.toRequest)
      ((promises env newRelicApp c).post visit) s := by
  refine Serves.call trivial below fun _ _ first _ _ grown own => ?_
  refine Serves.call trivial grown.below fun _ _ second _ _ grown own2 => ?_
  refine Serves.call trivial grown.below fun _ _ third _ _ grown own3 => ?_
  refine Serves.call trivial grown.below fun _ _ last _ _ grown own4 => ?_
  have answered : last.responses visit.id = notFoundResponse := by
    rw [own4, own3, own2, own, blank]
    rfl
  exact Serves.replied (.ok ()) grown.below (answered ▸ .missing nowhere)

/-- The status. -/
theorem status_serves (status : destination visit.request = .status)
    (below : IDsBelow s.shared.store) (blank : s.responses visit.id = {}) :
    Serves env newRelicApp c visit (recoveryHandler Status.serveHTTP visit.request.toRequest)
      ((promises env newRelicApp c).post visit) s := by
  refine Serves.call trivial below fun _ _ last _ _ grown own => ?_
  have answered : last.responses visit.id = { status := some 200, body := "ok" } := by
    rw [own, blank]
    decide
  exact Serves.replied (.ok ()) grown.below (answered ▸ .up status)

/-- The test panic. -/
theorem panic_serves (isPanic : destination visit.request = .panic)
    (below : IDsBelow s.shared.store) (blank : s.responses visit.id = {}) :
    Serves env newRelicApp c visit (recoveryHandler TestPanic.serveHTTP visit.request.toRequest)
      ((promises env newRelicApp c).post visit) s :=
  recovery_serves (.string "Parsing failed") below blank
    (fun impossible => by cases impossible) fun _ => .aborted isPanic

/-- A copy. -/
theorem copy_serves (copy : destination visit.request = .copy)
    (below : IDsBelow s.shared.store) (blank : s.responses visit.id = {}) :
    Serves env newRelicApp c visit
      (recoveryHandler (Copy.mk (racingAssociationService env)).serveHTTP visit.request.toRequest)
      ((promises env newRelicApp c).post visit) s := by
  rw [recoveryHandler, Copy.serveHTTP]
  by_cases unnamed : visit.request.postFormValue "association" = ""
  · have isNone : visit.copies = none := by simp [Visit.copies, unnamed]
    simp only [if_pos unnamed]
    refine Serves.call trivial below fun _ _ last _ _ grown own => ?_
    have answered : last.responses visit.id = { status := some 400 } := by
      rw [own, blank]
      rfl
    exact Serves.replied (.ok ()) grown.below (answered ▸ .unnamed copy isNone)
  · have copies : visit.copies = some (visit.request.postFormValue "association") := by
      simp [Visit.copies, copy, unnamed]
    simp only [if_neg unnamed]
    refine Program.Safe.recovering (fun _ => .refl) (Program.Safe.bind (fun _ => .refl)
      ((copyRequest_serves copies below).mono ?_))
    rintro (panic | _ | err) later ⟨stillBelow, kept⟩
    · exact recovery_serves panic stillBelow (kept.trans blank)
        (fun _ => .copyFailed copies) fun _ => .copyAborted copies
    · -- the copy returned no error, and the status is left open
      intro last moved final further
      obtain ⟨grown, own⟩ := grown_of_rely moved stillBelow
      obtain ⟨grownOn, ownOn⟩ := grown_of_rely further grown.below
      have answered : final.responses visit.id = {} :=
        ownOn.trans (own.trans (kept.trans blank))
      exact ⟨grownOn.below, answered ▸ .copied copies⟩
    · intro last moved
      obtain ⟨grown, own⟩ := grown_of_rely moved stillBelow
      exact recovery_serves (.error err) grown.below (own.trans (kept.trans blank))
        (fun _ => .copyFailed copies) fun _ => .copyAborted copies

/-! ## The index -/

/-- A query for one row hands it over, or ends with an error. -/
theorem scannedOne_cases {α β : Type} (scan : β → α → β) (dest : β) (fault : Fault)
    (found : Option α) :
    (∃ row, found = some row ∧ fault.scannedOne scan dest found = (scan dest row, none)) ∨
      ∃ value err, fault.scannedOne scan dest found = (value, some err) ∧
        (fault = .none → found = none) := by
  rcases fault with _ | ⟨err, _ | progress⟩
  · cases found with
    | none => exact .inr ⟨_, _, rfl, fun _ => rfl⟩
    | some row => exact .inl ⟨row, rfl, rfl⟩
  · exact .inr ⟨_, _, rfl, fun impossible => by cases impossible⟩
  · exact .inr ⟨_, _, rfl, fun impossible => by cases impossible⟩

/-- A query hands over the first of its rows, and all of them when it succeeds. -/
theorem scanned_starts {α β : Type} (fault : Fault) (scan : α → β) (rows : List α) :
    ∃ first, first <+: rows ∧ (fault.scanned (rows.map scan)).1 = first.map scan ∧
      (fault = .none → first = rows) := by
  cases fault with
  | none => exact ⟨rows, List.prefix_rfl, rfl, fun _ => rfl⟩
  | fail err progress =>
      exact ⟨rows.take progress, List.take_prefix _ _, List.map_take.symm,
        fun impossible => by cases impossible⟩

/-- The index lists the association that it has found. -/
theorem listing_serves (index : destination visit.request = .index) {row : AssociationRow}
    (below : IDsBelow s.shared.store) (blank : s.responses visit.id = {})
    (resolves : visit.resolves env s.shared.store = some row)
    (grown : Grown env visit.origin s.shared.store) :
    Serves env newRelicApp c visit
      (Program.recovering recovery (.call (.findEvents row.id) fun read =>
        (newRoot associationService eventService).writeEvents read.1))
      ((promises env newRelicApp c).post visit) s := by
  refine Serves.call trivial below fun fault w listed spared seen grownOn own => ?_
  have blankStill : listed.responses visit.id = {} := own.trans blank
  obtain ⟨rows, starts, handed, all⟩ := scanned_starts fault
    (Gorm.scanEvent env.sessionOffset) (Gorm.findEvents row.id w.store)
  have isListed : Listed env (c.spared visit) visit listed.shared.store rows := by
    refine ⟨⟨row, grownOn.resolves _ _ resolves, seen ▸ starts.sublist.subperm⟩,
      fun isSpared old wasOld => ?_⟩
    have same : old = row := Option.some.inj ((grown.resolves _ _ wasOld).symm.trans resolves)
    rw [all (spared isSpared), seen, same]
    exact ((grown.trans grownOn).findEvents row.id).sublist.subperm
  have isHanded : (answer env fault (.findEvents row.id) w).1.1 =
      rows.map (Gorm.scanEvent env.sessionOffset) := handed
  change Serves env newRelicApp c visit (Program.recovering recovery
    ((newRoot associationService eventService).writeEvents
      (answer env fault (.findEvents row.id) w).1.1)) _ _
  rw [isHanded]
  simp only [Root.writeEvents, newRoot, defaultEventJSON]
  cases marshalled : marshal (rows.map (Gorm.scanEvent env.sessionOffset)) with
  | error err =>
      exact recovery_serves (.error err) grownOn.below blankStill
        (fun _ => .unlisted index fun _ => .inr ⟨rows, err, isListed, marshalled⟩)
        fun impossible => by cases impossible
  | ok jsonOut =>
      refine Serves.call trivial grownOn.below fun _ _ typed _ _ grown own => ?_
      refine Serves.call trivial grown.below fun _ _ last _ _ further own2 => ?_
      have answered : last.responses visit.id =
          { status := some 200
            headers := [("Content-Type", "application/json")]
            body := Fmt.sprintf jsonOut } := by
        rw [own2, own, blankStill]
        simp [responded, Response.finalStatus]
      exact Serves.replied (.ok ()) further.below
        (answered ▸ .listed index (isListed.grown (grown.trans further)) marshalled)

/-- The index. -/
theorem index_serves (index : destination visit.request = .index)
    (below : IDsBelow s.shared.store) (blank : s.responses visit.id = {})
    (origin : visit.origin = s.shared.store) :
    Serves env newRelicApp c visit
      (recoveryHandler (newRoot associationService eventService).serveHTTP visit.request.toRequest)
      ((promises env newRelicApp c).post visit) s := by
  obtain ⟨rest, reads, onError, onFound⟩ : ∃ rest : Association × Option GoError → GoM Unit,
      recoveryHandler (newRoot associationService eventService).serveHTTP
          visit.request.toRequest =
        .call (.firstAssociation (.hostMatches visit.request.host) {}) rest ∧
      (∀ found err, rest (found, some err) = recovery (.error err)) ∧
      ∀ found, rest (found, none) = Program.recovering recovery
        (.call (.findEvents found.id) fun read =>
          (newRoot associationService eventService).writeEvents read.1) :=
    ⟨_, rfl, fun _ _ => rfl, fun _ => rfl⟩
  rw [reads]
  refine Serves.call trivial below fun fault w found spared seen grown own => ?_
  have stillBlank : found.responses visit.id = {} := own.trans blank
  have given : (answer env fault (.firstAssociation (.hostMatches visit.request.host) {}) w).1 =
      fault.scannedOne (Gorm.scanAssociation env.sessionOffset) {}
        (visit.resolves env w.store) := rfl
  rw [given]
  rcases scannedOne_cases (Gorm.scanAssociation env.sessionOffset) {} fault
      (visit.resolves env w.store) with ⟨row, isFound, answered⟩ | ⟨value, err, answered, missing⟩
  · rw [answered, onFound]
    exact listing_serves index grown.below stillBlank (seen ▸ isFound) (origin ▸ grown)
  · -- a visit that was spared faults has found no association, and there was none before
    have cause : c.spared visit → visit.resolves env visit.origin = none := by
      intro isSpared
      by_contra wasFound
      obtain ⟨row, wasRow⟩ := Option.ne_none_iff_exists'.mp wasFound
      have still : visit.resolves env w.store = some row :=
        seen ▸ grown.resolves _ _ (origin ▸ wasRow)
      rw [missing (spared isSpared)] at still
      cases still
    rw [answered, onError]
    exact recovery_serves (.error err) grown.below stillBlank
      (fun _ => .unlisted index fun isSpared => .inl (cause isSpared))
      fun impossible => by cases impossible

/-! ## Runs of the server -/

/-- **The handler of a visit** keeps its promise, from where the visit begins. -/
theorem serveHTTP_serves (below : IDsBelow s.shared.store) (blank : s.responses visit.id = {})
    (origin : visit.origin = s.shared.store) :
    Serves env newRelicApp c visit (Mux.serveHTTP (muxConfig env newRelicApp) visit.request)
      ((promises env newRelicApp c).post visit) s := by
  rw [serveHTTP_eq]
  cases goes : destination visit.request with
  | nowhere =>
      rw [if_pos rfl]
      exact notFound_serves goes below blank
  | index =>
      rw [if_neg (by decide), newInstrumentedHandler_eq]
      exact index_serves goes below blank origin
  | panic =>
      rw [if_neg (by decide), newInstrumentedHandler_eq]
      exact panic_serves goes below blank
  | copy =>
      rw [if_neg (by decide), newInstrumentedHandler_eq]
      exact copy_serves goes below blank
  | status =>
      rw [if_neg (by decide), newInstrumentedHandler_eq]
      exact status_serves goes below blank

end Handlers

section Runs

variable {env newRelicApp c}

/-- A visit that may start keeps its promise, and the others and it leave each other
alone. -/
theorem startsWell {pool : Pool Call Call.Answer PanicValue Unit ServerWorld Visit}
    (below : IDsBelow pool.world.shared.store) (visit : Visit) (program : GoM Unit)
    (starts : (serverRules env newRelicApp c).starts pool visit program) :
    Pool.StartsWell (promises env newRelicApp c) pool visit program := by
  obtain ⟨rfl, origin, blank, fresh, alone⟩ := starts
  refine ⟨⟨serveHTTP_serves below blank origin, fun other live => ?_⟩, fun thread member => ?_⟩
  · have found := live
    obtain ⟨program, member, -⟩ := found
    refine ⟨⟨fresh _ member, fun exclusive acronym copies same => ?_⟩,
      (fresh _ member).symm, fun exclusive => alone exclusive other live⟩
    exact alone exclusive other live acronym same copies
  · exact ⟨fresh thread member, (fresh thread member).symm⟩

/-- The server when it starts, with a new database. -/
structure NewServer (pool : Pool Call Call.Answer PanicValue Unit ServerWorld Visit) : Prop where
  store : pool.world.shared.store = .empty ∨ pool.world.shared.store = .seeded
  threads : pool.threads = []

theorem NewServer.below {pool : Pool Call Call.Answer PanicValue Unit ServerWorld Visit}
    (new : NewServer pool) : IDsBelow pool.world.shared.store := by
  rcases new.store with same | same <;> rw [same] <;> unfold IDsBelow <;> decide

/-- All promises are kept in all runs of the server. -/
theorem keepsPromises {first last : Pool Call Call.Answer PanicValue Unit ServerWorld Visit}
    {actions : List (Action Call Visit)} (new : NewServer first)
    (run : Pool.Run (serverRules env newRelicApp c) first actions last) :
    Pool.Promising (promises env newRelicApp c) last ∧ IDsBelow last.world.shared.store := by
  refine Pool.Run.keepsPromises (fun s => IDsBelow s.shared.store)
    (fun visit _ {_ _} step below => (step.grown below).below) ?_
    (fun pool below visit program => startsWell below visit program) run ?_ new.below
    (fun _ _ => trivial) (fun _ _ => trivial)
  · rintro before after ⟨rails, -, rfl⟩ below
    exact below
  · obtain ⟨world, threads⟩ := first
    obtain rfl : threads = [] := new.threads
    exact .of_no_threads _ world

end Runs

/-! ## A visit that is alone -/

/-- The server with one visit. -/
def ServerWorld.of (w : World) : ServerWorld where
  shared := { w with response := {} }
  responses id := if id = 0 then w.response else {}

/-- A visit is served on its own, without faults. -/
def servedAlone (env : Environment) (visit : Visit) (w : World) :
    Except PanicValue Unit × World :=
  Program.run (fun call w => answer env .none call w)
    (Mux.serveHTTP (muxConfig env true) visit.request) w

/-- A visit that is served on its own is a run of the server. -/
theorem run_servedAlone (env : Environment) (c : Circumstances) (visit : Visit) (w : World)
    (first : visit.id = 0) (origin : visit.origin = w.store) (blank : w.response = {}) :
    ∃ actions, Pool.Run (serverRules env true c) ⟨.of w, []⟩ actions
      ⟨.of (servedAlone env visit w).2, [(visit, Pool.ended (servedAlone env visit w).1)]⟩ := by
  have answers : ∀ call (w : World), (serverRules env true c).exec visit (.of w) call
      (answer env .none call w).1 (.of (answer env .none call w).2) := by
    intro call w
    refine ⟨.none, (answer env .none call w).2, fun _ => rfl, ?_, ?_⟩
    · simp [ServerWorld.seenBy, ServerWorld.of, first]
    · simp only [ServerWorld.left, ServerWorld.of, first, ServerWorld.mk.injEq, true_and]
      funext id
      by_cases own : id = 0
      · simp [own]
      · simp [own]
  obtain ⟨actions, -, alone⟩ := Pool.Run.alone (fun call w => answer env .none call w)
    ServerWorld.of [] [] (.of_answers _ _ answers
      (Mux.serveHTTP (muxConfig env true) visit.request) w)
  refine ⟨_, .step (.start ⟨rfl, origin, ?_, by simp, ?_⟩) alone⟩
  · simp [ServerWorld.of, first, blank]
  · rintro - other ⟨program, member, -⟩
    cases member

/-- Circumstances in which no visit meets faults, copies wait for each other and the
Rails databases hold still. -/
def Circumstances.calm (rails : String → RailsDatabase) : Circumstances where
  spared _ := True
  exclusive := True
  admissible other := other = rails

end DawnPatrol.Server
