import DawnPatrol.Http.Handlers
import DawnPatrol.RailsDb.FaultlessCopy

/-!
# The hosts of copied associations

Copies of associations under their short names, from an empty store, leave one
row for each, in the order of the copies (`Hosted`). The lookup by host takes
the first row whose pattern matches. So each association is served at its own
host exactly when no association that was copied before it has a pattern that
matches this host too (`served_at_own_hosts_iff`). A pattern matches the hosts
of all names that end in its own name, and of those it matches by themselves.
-/

set_option autoImplicit false

namespace DawnPatrol.Http

open Foundation Go Api Postgres Execution Db RailsDb

/-! ## Copies under short names -/

/-- A request that copies an association under its short name, with the Rails
databases and the faults it meets. No statement fails. -/
structure NamedCopy (env : Environment) where
  request : Request
  rails : String → Rails.RailsDatabase
  script : Script
  racing : Rails.RacingAssociation
  succeeds : StatementsSucceed script
  found : firstRacingAssociation env (request.postFormValue "association")
    (rails (databaseURL env (request.postFormValue "association"))) = some racing
  byShortName : Unicode.asciiOnly.lower (request.postFormValue "association") =
    Unicode.asciiOnly.lower racing.shortName
  nonempty : racing.shortName ≠ ""
  alphanumeric : IsAlphanumeric racing.shortName

namespace NamedCopy

variable {env : Environment} (c : NamedCopy env)

/-- The acronym that is asked for. -/
def acronym : String := c.request.postFormValue "association"

/-- The short name in lower case. -/
def name : String := Unicode.asciiOnly.lower c.racing.shortName

/-- The host of the association. -/
def host : String := env.unicode.lower c.racing.shortName ++ ".web"

/-- The events of its Rails database. -/
def events : List Rails.Event := (c.rails (databaseURL env c.acronym)).events

/-- The association it is copied to. -/
def association : Association :=
  RacingAssociationService.copiedAssociation env c.acronym c.racing

theorem lower_eq_name : env.unicode.lower c.racing.shortName = c.name :=
  env.unicode.lower_of_alphanumeric c.alphanumeric

theorem host_eq : c.host = c.name ++ ".web" := by
  rw [host, lower_eq_name]

theorem association_host : c.association.host = "0.0.0.0|localhost|" ++ c.name ++ ".web" := by
  rw [← c.lower_eq_name]
  rfl

/-- The pattern of a copied association is plain. -/
theorem isPlainPattern : IsPlainPattern c.association.host := by
  rw [c.association_host]
  exact isPlainPattern_web fun _ => isLowerAlphanum_of_mem_lower c.alphanumeric

theorem acronym_ne : c.acronym ≠ "" := by
  intro blank
  have names := c.byShortName
  rw [show c.request.postFormValue "association" = "" from blank] at names
  have letters := congrArg String.toList names
  simp only [Unicode.lower, String.toList_ofList, String.toList_empty, List.map_nil] at letters
  exact c.nonempty (String.toList_eq_nil_iff.mp (List.map_eq_nil_iff.mp letters.symm))

/-- The query for its racing association. -/
theorem finds : racingAssociationFound env c.script (c.rails (databaseURL env c.acronym))
    c.acronym = (c.racing, none) := by
  have row : firstRacingAssociation env c.acronym (c.rails (databaseURL env c.acronym)) =
      some c.racing := c.found
  simp only [racingAssociationFound, c.succeeds .firstRacingAssociation (by decide) (by decide) 0,
    row, Fault.scannedOne]

/-- What the copy delivers once it has converted all dates. -/
def delivery : Delivery where
  association := c.association
  events := c.events
  loads := true
  named := c.acronym_ne
  blank := rfl

end NamedCopy

variable {env : Environment}

/-- Requests that complete one after the other, each with a response of its own. -/
inductive Completed (env : Environment) (origin : World) : List (NamedCopy env) → World → Prop
  | none : Completed env origin [] origin
  | next {copies : List (NamedCopy env)} {w : World} {c : NamedCopy env} {later : Machine}
      (before : Completed env origin copies w)
      (completes : run env ((Copy.mk (racingAssociationService env)).serveHTTP c.request)
        ⟨{ w with rails := c.rails, response := {} }, c.script⟩ = (.ok (), later)) :
      Completed env origin (copies ++ [c]) later.world

/-- A copy that completes delivers its association with all of its events. -/
theorem delivered_of_completes {c : NamedCopy env} {w : World} {later : Machine}
    (numbered : w.store.WellNumbered)
    (completes : run env ((Copy.mk (racingAssociationService env)).serveHTTP c.request)
      ⟨{ w with rails := c.rails, response := {} }, c.script⟩ = (.ok (), later)) :
    Delivered env c.delivery w.store later.world.store := by
  set url := databaseURL env c.acronym with urlIs
  obtain ⟨conns, nextConn, script, ran⟩ := @run_copy_serveHTTP env c.request c.acronym_ne
    ⟨{ w with rails := c.rails, response := {} }, c.script⟩
  rw [ran] at completes
  have stored : (copyEffect env c.script (c.rails url) c.acronym w.store).1 = .ok none ∧
      later.world.store = (copyEffect env c.script (c.rails url) c.acronym w.store).2 := by
    obtain ⟨ending, rfl⟩ := Prod.ext_iff.mp completes
    exact ⟨copyEnding_eq_ok.mp ending, rfl⟩
  obtain ⟨ended, left⟩ := stored
  obtain ⟨racing, complete⟩ : ∃ racing, Completes env c.script (c.rails url) c.acronym racing := by
    by_contra incomplete
    exact copyEffect_of_not_completes env incomplete w.store ended
  obtain rfl : racing = c.racing := by simpa using complete.reaches.found.symm.trans c.finds
  have read : railsEventsRead c.script (c.rails url) = c.events := by
    simp only [railsEventsRead, c.succeeds .findRailsEvents (by decide) (by decide) 0,
      Fault.scanned]
    rfl
  have loads : firstFailure (c.script .loadLocation) c.events.length = none :=
    firstFailure_eq_none.mpr (read ▸ complete.loads)
  have delivers := copyEffect_delivers c.succeeds complete.reaches c.acronym_ne numbered
  have same : deliveryOf env c.script (c.rails url) c.acronym c.racing c.acronym_ne =
      c.delivery := by
    simp only [deliveryOf, NamedCopy.delivery,
      show (c.rails url).events = c.events from rfl, loads]
    rfl
  rw [left, ← same]
  exact delivers

/-- Copies that meet no fault complete. -/
theorem completed_of_clear (origin : World) {copies : List (NamedCopy env)}
    (faultless : ∀ c ∈ copies, c.script = .clear) : ∃ last, Completed env origin copies last := by
  induction copies using List.reverseRecOn with
  | nil => exact ⟨origin, .none⟩
  | append_singleton copies c ih =>
      obtain ⟨w, before⟩ := ih fun b isCopy => faultless b (List.mem_append_left _ isCopy)
      have clear := faultless c (by simp)
      obtain ⟨conns, nextConn, script, ran⟩ := @run_copy_serveHTTP env c.request c.acronym_ne
        ⟨{ w with rails := c.rails, response := {} }, c.script⟩
      have reaches : Reaches env c.script (c.rails (databaseURL env c.acronym)) c.acronym
          c.racing := ⟨clear ▸ ⟨0, rfl, 0, rfl⟩, c.finds⟩
      have zones : firstFailure (c.script .loadLocation)
          (railsEventsRead c.script (c.rails (databaseURL env c.acronym))).length = none :=
        firstFailure_eq_none.mpr fun _ _ => clear ▸ rfl
      have ends : (copyEffect env c.script (c.rails (databaseURL env c.acronym)) c.acronym
          w.store).1 = .ok none := by
        rw [copyEffect_of_reaches reaches]
        simp only [zones]
      exact ⟨_, before.next (ran.trans (Prod.ext (copyEnding_eq_ok.mpr ends) rfl))⟩

/-! ## What copies under short names leave -/

/-- The row of a copy, by its place among the copies. -/
def hostedRow (place : ℕ) (c : NamedCopy env) : AssociationRow :=
  Gorm.associationRow c.association (place + 1)

/-- A store holds the rows of some copies, in their order, and the events of each. -/
structure Hosted (copies : List (NamedCopy env)) (st : Store) : Prop where
  numbered : st.WellNumbered
  next : st.associationsIDSeq = copies.length + 1
  associations : st.associations = copies.mapIdx hostedRow
  events : ∀ (place : ℕ) (c : NamedCopy env), copies[place]? = some c → ∃ next,
    Gorm.findEvents (place + 1) st = newRows next (c.events.map (converted env (place + 1)))

theorem Hosted.empty : Hosted ([] : List (NamedCopy env)) .empty where
  numbered := .empty
  next := rfl
  associations := rfl
  events place c there := by simp at there

theorem mem_mapIdx_hostedRow {copies : List (NamedCopy env)} {row : AssociationRow} :
    row ∈ copies.mapIdx hostedRow ↔
      ∃ place c, copies[place]? = some c ∧ hostedRow place c = row := by
  simp only [List.mem_mapIdx, List.getElem?_eq_some_iff]
  constructor
  · rintro ⟨place, inside, rfl⟩
    exact ⟨place, copies[place], ⟨inside, rfl⟩, rfl⟩
  · rintro ⟨place, c, ⟨inside, rfl⟩, rfl⟩
    exact ⟨place, inside, rfl⟩

theorem associationID_of_mem_newRows {owner next : ℤ} {events : List Rails.Event} {row : EventRow}
    (member : row ∈ newRows next (events.map (converted env owner))) :
    row.associationID = owner := by
  induction events generalizing next with
  | nil => cases member
  | cons e events ih =>
      rcases List.mem_cons.mp member with rfl | later
      · rfl
      · exact ih later

/-- No row holds a unique value of an association with a new short name. -/
theorem Hosted.placement_fresh {copies : List (NamedCopy env)} {c : NamedCopy env} {st : Store}
    (hosted : Hosted copies st) (new : ∀ b ∈ copies, b.name ≠ c.name) :
    placement c.delivery.association st = .fresh := by
  have rowOf : ∀ row ∈ st.associations, ∃ b ∈ copies, row.acronym = b.acronym ∧
      row.host = b.association.host ∧ row.name = b.racing.shortName := by
    intro row member
    rw [hosted.associations] at member
    obtain ⟨place, b, there, rfl⟩ := mem_mapIdx_hostedRow.mp member
    exact ⟨b, List.mem_of_getElem? there, rfl, rfl, rfl⟩
  have newAcronym : c.acronym ∉ st.associations.map AssociationRow.acronym := by
    intro taken
    obtain ⟨row, member, same⟩ := List.mem_map.mp taken
    obtain ⟨b, isCopy, acronym, -, -⟩ := rowOf row member
    refine new b isCopy ?_
    rw [NamedCopy.name, NamedCopy.name, ← b.byShortName, ← c.byShortName]
    exact congrArg Unicode.asciiOnly.lower (acronym.symm.trans same)
  have newHost : c.association.host ∉ st.associations.map AssociationRow.host := by
    intro taken
    obtain ⟨row, member, same⟩ := List.mem_map.mp taken
    obtain ⟨b, isCopy, -, host, -⟩ := rowOf row member
    exact copiedHost_ne b.alphanumeric c.alphanumeric (new b isCopy) (host.symm.trans same)
  have newName : c.association.name ∉ st.associations.map AssociationRow.name := by
    intro taken
    obtain ⟨row, member, same⟩ := List.mem_map.mp taken
    obtain ⟨b, isCopy, -, -, name⟩ := rowOf row member
    exact new b isCopy (congrArg Unicode.asciiOnly.lower (name.symm.trans same))
  rw [placement_of_not_stored newAcronym]
  exact if_neg fun taken => taken.elim newHost newName

/-- **A copy of a new short name** joins the copies. -/
theorem Hosted.concat {copies : List (NamedCopy env)} {c : NamedCopy env} {st after : Store}
    (hosted : Hosted copies st) (delivered : Delivered env c.delivery st after)
    (new : ∀ b ∈ copies, b.name ≠ c.name) : Hosted (copies ++ [c]) after := by
  have place : placement c.delivery.association st = .fresh := hosted.placement_fresh new
  have known : (st.associationsIDSeq : ℤ) ≠ 0 := by
    have := st.associationsIDSeq_pos
    omega
  have rows : c.delivery.rows env st.associationsIDSeq st.eventsIDSeq =
      newRows st.eventsIDSeq (c.events.map (converted env st.associationsIDSeq)) :=
    if_pos ⟨rfl, known⟩
  have events := delivered.events
  rw [place, Placement.owner, rows] at events
  refine ⟨delivered.wellNumbered hosted.numbered, ?_, ?_, fun at' b there => ?_⟩
  · rw [delivered.associationsIDSeq, place, hosted.next, List.length_append]
    rfl
  · rw [delivered.associations, place, hosted.associations, hosted.next, List.mapIdx_concat]
    rfl
  · rw [Gorm.findEvents, events, List.filter_append]
    rcases lt_trichotomy at' copies.length with earlier | rfl | beyond
    · -- the new events belong to another association
      rw [List.getElem?_append_left earlier] at there
      obtain ⟨next, found⟩ := hosted.events at' b there
      refine ⟨next, ?_⟩
      rw [← found, Gorm.findEvents, List.append_right_eq_self, List.filter_eq_nil_iff]
      intro row member
      rw [associationID_of_mem_newRows member, hosted.next, beq_iff_eq]
      omega
    · -- the old events belong to associations that were there
      rw [List.getElem?_concat_length] at there
      cases there
      refine ⟨st.eventsIDSeq, ?_⟩
      rw [← hosted.next, List.filter_eq_nil_iff.mpr, List.nil_append, List.filter_eq_self]
      · intro row member
        rw [associationID_of_mem_newRows member, beq_iff_eq]
      · intro row member
        rw [beq_iff_eq]
        intro same
        obtain ⟨owner, stored, isOwner⟩ := List.mem_map.mp (st.eventsAssociationID row member)
        have := (hosted.numbered.associations owner stored).2
        omega
    · rw [List.getElem?_eq_none (by rw [List.length_append]; exact beyond)] at there
      cases there

/-- Requests that complete, of short names that differ ignoring case, leave their
rows and events. -/
theorem hosted_of_completed {origin last : World} {copies : List (NamedCopy env)}
    (new : origin.store = .empty) (completed : Completed env origin copies last)
    (differ : copies.Pairwise fun b c => b.name ≠ c.name) : Hosted copies last.store := by
  induction completed with
  | none =>
      rw [new]
      exact .empty
  | next before completes ih =>
      obtain ⟨earlier, -, others⟩ := List.pairwise_append.mp differ
      have hosted := ih earlier
      exact hosted.concat (delivered_of_completes hosted.numbered completes)
        fun b isCopy => others b isCopy _ (List.mem_singleton_self _)

/-! ## Who is found at a host -/

/-- The pattern of an association matches the host of another: its name ends the
other name, or its pattern matches the other name without the domain. -/
def Shadows (b c : NamedCopy env) : Prop :=
  b.name.toList <:+ c.name.toList ∨ matchesPattern c.name b.association.host = true

theorem shadows_iff {b c : NamedCopy env} :
    Shadows b c ↔ matchesPattern c.host b.association.host = true := by
  rw [Shadows, c.host_eq, b.association_host]
  exact (matchesPattern_web (fun _ => isLowerAlphanum_of_mem_lower b.alphanumeric)
    fun _ => isLowerAlphanum_of_mem_lower c.alphanumeric).symm

theorem Shadows.refl (c : NamedCopy env) : Shadows c c := .inl List.suffix_rfl

/-- An association is served at its own host: the lookup finds its row, and the
index the events that were copied with it. -/
def ServedAtOwnHost (w : World) (c : NamedCopy env) : Prop :=
  ∃ row ∈ w.store.associations, row.acronym = c.acronym ∧
    eval env (Db.AssociationService.firstByHost c.host) w =
      (.ok (Gorm.scanAssociation env.sessionOffset {} row, none), w) ∧
    ∃ next, eval env ((newRoot associationService eventService).findEvents { host := c.host }) w =
      (.ok ((newRows next (c.events.map (converted env row.id))).map
        (Gorm.scanEvent env.sessionOffset)), w)

/-- The index lists the events of the association that its lookup finds. -/
theorem eval_findEvents (env : Environment) (r : Request) {w : World} {row : AssociationRow}
    (found : Gorm.firstAssociation env.operator (.hostMatches r.host) {} w.store = some row) :
    eval env ((newRoot associationService eventService).findEvents r) w =
      (.ok ((Gorm.findEvents row.id w.store).map (Gorm.scanEvent env.sessionOffset)), w) := by
  have looked : run env (Db.AssociationService.firstByHost r.host) ⟨w, .clear⟩ =
      (.ok (Gorm.scanAssociation env.sessionOffset {} row, none), ⟨w, .clear⟩) := by
    have answered : run env (Db.AssociationService.firstByHost r.host) ⟨w, .clear⟩ =
        (.ok (Fault.none.scannedOne (Gorm.scanAssociation env.sessionOffset) {}
          (Gorm.firstAssociation env.operator (.hostMatches r.host) {} w.store)),
          ⟨w, Script.clear.next .firstAssociation⟩) := rfl
    rw [answered, found, Script.clear_next]
    rfl
  have listed : run env ((newRoot associationService eventService).findEvents r) ⟨w, .clear⟩ =
      (.ok ((Gorm.findEvents row.id w.store).map (Gorm.scanEvent env.sessionOffset)),
        ⟨w, Script.clear.next .findEvents⟩) := run_bind_of_ok env looked _
  simp only [eval, listed]

/-- The lookup finds the row of a copy exactly when no earlier one shadows it. -/
theorem firstAssociation_hosted {copies : List (NamedCopy env)} {st : Store}
    (hosted : Hosted copies st) {place : ℕ} {c : NamedCopy env} (there : copies[place]? = some c) :
    Gorm.firstAssociation env.operator (.hostMatches c.host) {} st = some (hostedRow place c) ↔
      ∀ earlier < place, ∀ b, copies[earlier]? = some b → ¬ Shadows b c := by
  have selected : ∀ earlier (b : NamedCopy env),
      (env.operator.matchesHost c.host (hostedRow earlier b).host = true ↔ Shadows b c) := by
    intro earlier b
    rw [shadows_iff, ← env.operator.plain _ _ b.isPlainPattern]
    rfl
  simp only [Gorm.firstAssociation, Gorm.Condition.selects, BEq.rfl, Bool.true_or, Bool.and_true]
  rw [firstBy_eq_some_iff st.associationsPkey]
  simp only [hosted.associations, mem_mapIdx_hostedRow, selected]
  constructor
  · rintro ⟨-, -, least⟩ earlier before b isCopy shadows
    have le := least _ ⟨earlier, b, isCopy, rfl⟩ ((selected earlier b).mpr shadows)
    simp only [hostedRow, Gorm.associationRow] at le
    omega
  · intro unshadowed
    refine ⟨⟨place, c, there, rfl⟩, .refl c, ?_⟩
    rintro _ ⟨other, b, isCopy, rfl⟩ matched
    have notEarlier : ¬ other < place := fun before =>
      unshadowed other before b isCopy ((selected other b).mp matched)
    simp only [hostedRow, Gorm.associationRow]
    omega

/-- **A copied association is served at its own host** exactly when none that was
copied before it shadows it. -/
theorem servedAtOwnHost_iff {copies : List (NamedCopy env)} {w : World}
    (hosted : Hosted copies w.store) {place : ℕ} {c : NamedCopy env}
    (there : copies[place]? = some c) :
    ServedAtOwnHost w c ↔ ∀ earlier < place, ∀ b, copies[earlier]? = some b → ¬ Shadows b c := by
  rw [← firstAssociation_hosted hosted there]
  have member : hostedRow place c ∈ w.store.associations := by
    rw [hosted.associations]
    exact mem_mapIdx_hostedRow.mpr ⟨place, c, there, rfl⟩
  constructor
  · rintro ⟨row, stored, acronym, resolved, -⟩
    have own : row = hostedRow place c :=
      List.inj_on_of_nodup_map w.store.associationsAcronymIdx stored member acronym
    rw [own, eval_firstByHost] at resolved
    cases found : Gorm.firstAssociation env.operator (.hostMatches c.host) {} w.store with
    | none => simp [found] at resolved
    | some other =>
        simp only [found, Prod.mk.injEq, Except.ok.injEq, and_true] at resolved
        have sameID : other.id = (hostedRow place c).id := congrArg Association.id resolved
        rw [List.inj_on_of_nodup_map w.store.associationsPkey (mem_of_firstBy found).1 member
          sameID]
  · intro found
    obtain ⟨next, rows⟩ := hosted.events place c there
    refine ⟨hostedRow place c, member, rfl, ?_, next, ?_⟩
    · rw [eval_firstByHost, found]
    · rw [eval_findEvents env { host := c.host } found]
      exact congrArg (fun rows => (Except.ok (rows.map (Gorm.scanEvent env.sessionOffset)), w)) rows

/-- **Every copied association is served at its own host** exactly when no
association shadows one that is copied after it. -/
theorem served_at_own_hosts_iff (env : Environment) {origin last : World}
    {copies : List (NamedCopy env)} (new : origin.store = .empty)
    (completed : Completed env origin copies last)
    (differ : copies.Pairwise fun b c => b.name ≠ c.name) :
    (∀ c ∈ copies, ServedAtOwnHost last c) ↔ copies.Pairwise fun b c => ¬ Shadows b c := by
  have hosted := hosted_of_completed new completed differ
  rw [List.pairwise_iff_getElem]
  constructor
  · intro served earlier later before after lt shadows
    exact (servedAtOwnHost_iff hosted (List.getElem?_eq_getElem after)).mp
      (served _ (List.getElem_mem after)) earlier lt _ (List.getElem?_eq_getElem before) shadows
  · intro unshadowed c isCopy
    obtain ⟨place, inside, rfl⟩ := List.getElem_of_mem isCopy
    refine (servedAtOwnHost_iff hosted (List.getElem?_eq_getElem inside)).mpr ?_
    intro earlier before b there
    obtain ⟨within, rfl⟩ := List.getElem?_eq_some_iff.mp there
    exact unshadowed earlier place within inside before

/-! ## Two names in both orders -/

instance (b c : NamedCopy env) : Decidable (Shadows b c) :=
  inferInstanceAs (Decidable (_ ∨ _))

/-- The racing association of a database with one is found by its short name. -/
theorem firstRacingAssociation_ofAssociation (shortName : String) (events : List Rails.Event)
    (unique : (events.map Rails.Event.id).Nodup) :
    firstRacingAssociation .plain shortName (.ofAssociation shortName events unique) =
      some { id := 1, name := shortName, shortName := shortName } := by
  set rails := Rails.RailsDatabase.ofAssociation shortName events unique with railsIs
  refine (firstBy_eq_some_iff rails.racingAssociations_pkey).mpr
    ⟨List.mem_singleton_self _, ?_, ?_⟩
  · exact beq_self_eq_true _
  · intro other member _
    rw [List.mem_singleton.mp member]

/-- A copy of a Rails database with one event. -/
def NamedCopy.ofName (shortName : String) (nonempty : shortName ≠ "")
    (alphanumeric : IsAlphanumeric shortName) : NamedCopy .plain where
  request := { postFormValue := fun _ => shortName }
  rails _ := .ofAssociation shortName [{ id := 1 }] (List.nodup_singleton _)
  script := .clear
  racing := { id := 1, name := shortName, shortName := shortName }
  succeeds := statementsSucceed_clear
  found := firstRacingAssociation_ofAssociation shortName _ _
  byShortName := rfl
  nonempty := nonempty
  alphanumeric := alphanumeric

/-- A copy of CBRA. -/
def copyOfCbra : NamedCopy .plain := .ofName "CBRA" (by decide) (by decide)

/-- A copy of BRA. -/
def copyOfBra : NamedCopy .plain := .ofName "BRA" (by decide) (by decide)

/-- Copied in this order, both are served at their own hosts. -/
theorem cbra_then_bra_served :
    ∃ last, Completed .plain (.withEvent .empty "CBRA") [copyOfCbra, copyOfBra] last ∧
      ∀ c ∈ [copyOfCbra, copyOfBra], ServedAtOwnHost last c := by
  obtain ⟨last, completed⟩ := completed_of_clear (.withEvent .empty "CBRA")
    (show ∀ c ∈ [copyOfCbra, copyOfBra], c.script = .clear by
      simp [copyOfCbra, copyOfBra, NamedCopy.ofName])
  exact ⟨last, completed,
    (served_at_own_hosts_iff .plain rfl completed (by decide)).mpr (by decide)⟩

/-- **In the other order** the pattern of BRA takes the host of CBRA. -/
theorem bra_takes_host_of_cbra :
    ¬ ∀ (env : Environment) (origin last : World) (copies : List (NamedCopy env)),
      origin.store = .empty → Completed env origin copies last →
      copies.Pairwise (fun b c => b.name ≠ c.name) → ∀ c ∈ copies, ServedAtOwnHost last c := by
  intro served
  obtain ⟨last, completed⟩ := completed_of_clear (.withEvent .empty "CBRA")
    (show ∀ c ∈ [copyOfBra, copyOfCbra], c.script = .clear by
      simp [copyOfCbra, copyOfBra, NamedCopy.ofName])
  have differ : [copyOfBra, copyOfCbra].Pairwise fun b c => b.name ≠ c.name := by decide
  have hosted := hosted_of_completed rfl completed differ
  have cbraServed := served .plain _ last _ rfl completed differ copyOfCbra (by simp)
  exact (servedAtOwnHost_iff hosted (rfl : [copyOfBra, copyOfCbra][1]? = some copyOfCbra)).mp
    cbraServed 0 Nat.zero_lt_one copyOfBra rfl (.inl (by decide))

end DawnPatrol.Http
