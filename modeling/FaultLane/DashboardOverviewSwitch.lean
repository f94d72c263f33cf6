import FaultLane.DashboardOverviewPlatforms

set_option autoImplicit false

/-!
# The overview and the rollup switch

With recounted rollups the overview does not depend on the switch when platforms read alike, and
while no platform key is cut where it is shown, only then.
-/
namespace FaultLane.DashboardOverview
open KeyedTable LabelledTally GroupedSums RustText JobQueue DailyRollups TransitionSystem
open CrashContext (CrashType)

/-- The answer is one, whatever the switch and the order in which rows come. -/
def SwitchIndependent (locale : Locale) (db : Database) (clock : Timestamp) : Prop :=
  ∀ a a', loadOverview locale a db clock true = loadOverview locale a' db clock false

section
variable {locale : Locale} {db : Database} {clock : Timestamp}

theorem Recounted.platformGroups (h : Recounted locale.initcap db) (clock : Timestamp) :
    PlatformGroups locale db.toTables clock
      (rollupRows locale (windowRows db clock .platformArchitecture)) :=
  h.groups_windowRows locale clock (d := .platformArchitecture) rfl

theorem Recounted.total_platforms (h : Recounted locale.initcap db) (clock : Timestamp) :
    total (rollupRows locale (windowRows db clock .platformArchitecture)) =
      (windowEvents db.toTables clock).length := by
  rw [total_rollupRows, sumCounts_eq, h.members_eventRows clock rfl, Multiset.coe_card]
  exact List.length_map _

/-- Only platforms may differ. -/
theorem Recounted.loadOverview_eq_iff (h : Recounted locale.initcap db)
    (hversions : ShortVersions db.toTables) {a a' : Arrangement} :
    loadOverview locale a db clock true = loadOverview locale a' db clock false ↔
      distributionRows (limited (byKey locale.collation) a
          (rollupRows locale (windowRows db clock .platformArchitecture))) =
        distributionRows (limited (byKey locale.collation) a'
          (eventPlatformRows db.toTables clock)) := by
  constructor
  · exact fun heq => congrArg ProjectOverview.platforms heq
  · intro hplatforms
    change overviewFromRollups locale a db clock = overviewFromEvents locale a' db clock
    unfold overviewFromRollups overviewFromEvents
    rw [h.rollupTotals_eq, h.rollupBuckets_eq, h.rollupSymbolication_eq, h.rollupIngest_eq,
      h.releases_eq hversions, h.crashTypes_eq, h.states_eq, hplatforms]

theorem switchIndependent_iff (h : Recounted locale.initcap db)
    (hversions : ShortVersions db.toTables) :
    (PlatformsReadAlike locale db.toTables clock → SwitchIndependent locale db clock) ∧
      ((∀ e ∈ windowEvents db.toTables clock,
          LogTail.utf8Length (platformKeyOf db.toTables e) ≤ 256) →
        SwitchIndependent locale db clock → PlatformsReadAlike locale db.toTables clock) := by
  constructor
  · intro halike a a'
    rw [h.loadOverview_eq_iff hversions]
    exact halike.distributionRows_eq (h.platformGroups clock) (h.total_platforms clock)
  · intro hshort hsame
    let a : Arrangement := ⟨id, fun _ => .refl _⟩
    have hplatforms := (h.loadOverview_eq_iff hversions).mp (hsame a a)
    rw [distributionRows_limited, distributionRows_limited] at hplatforms
    exact readAlike_of_values (h.platformGroups clock) hshort
      (congrArg Distributions.values hplatforms)

end

/-! ## Rollups of runs -/

section
variable {initcap : Text → Text} {db : Database}

/-- The rollups that the triggers keep equal their recount. -/
theorem recounted_of_accounted (h : Accounted initcap db.toTables db.rollups) :
    Recounted initcap db := by
  intro day
  by_cases hr : ∃ i ∈ db.issues, i.regressedOn day
  · exact ((h.exact_iff day).mpr hr).filter _
  · obtain ⟨rows, hrows, hpart⟩ := counted_eq h day
    have hnone : (db.issues.rows.filter fun i => i.regressedOn day) = [] :=
      List.filter_eq_nil_iff.mpr fun i hi hon => hr ⟨i, hi, of_decide_eq_true hon⟩
    have htallies : Tallies (rows.map leftRow) ((db.entries.map
        (Entry.written initcap db.releases)).filter fun x => x.1.day = day) := by
      rw [members_eq, hnone, List.map_nil, Multiset.coe_nil, add_zero]
      exact hpart.tallies
    let zeroRow : Rollup := leftRow
      ⟨⟨day, .issueRegressed, "all".toList⟩, "Regressed issues".toList, 0⟩
    have hrecount : db.recount initcap day = rows.map leftRow ++ [zeroRow] := by
      rw [Tables.recount, hrows, Tables.regressedRows, hnone, List.map_append]
      rfl
    have hzero : ([zeroRow].filter fun row => speaks row) = [] :=
      List.filter_eq_nil_iff.mpr fun row hrow hspeaks => by
        rw [List.mem_singleton.mp hrow] at hspeaks
        exact of_decide_eq_true hspeaks rfl rfl
    rw [hrecount, List.filter_append, hzero, List.append_nil]
    exact ((h.stored_tallies day).perm htallies (h.agrees day)).filter _

theorem recounted_of_reachable
    (h : Reachable (restrict (step initcap) fun db => Distinct db.toTables) (fun _ => True)
      Database.init db) : Recounted initcap db :=
  recounted_of_accounted (accounted_of_reachable h)

end
/-! ## Platforms in lower case -/

/-- The order of code points. -/
def codePoints : Collation where
  le := fun a b => List.instLE.le a b
  decide := fun a b => List.decidableLE a b
  total := fun a b => List.le_total a b
  trans := fun _ _ _ hab hbc => List.le_trans hab hbc
  antisymm := fun _ _ hab hba => List.le_antisymm hab hba

def asciiLocale : Locale := ⟨asciiInitcap, codePoints⟩

/-- One crash on a platform. -/
def crashOn (platform architecture : Option String) : List Action :=
  [.ingest 1 0, .publish ⟨⟨1, 11, platform.map String.toList, architecture.map String.toList,
    some .crash, .missing⟩, none, [], true⟩]

def asIs : Arrangement := ⟨id, fun _ => .refl _⟩

theorem not_switchIndependent_windows : ¬ ∀ db : Database,
    Reachable (restrict (step asciiInitcap) fun db => Distinct db.toTables) (fun _ => True)
      Database.init db → Recounted asciiInitcap db →
        ∀ clock, SwitchIndependent asciiLocale db clock := by
  have hrun : (run (restrict (step asciiInitcap) fun db => Distinct db.toTables) (fun _ => True)
      Database.init (crashOn "windows" "x86_64")).isSome := by
    decide +kernel
  obtain ⟨db, hdb⟩ := Option.isSome_iff_exists.mp hrun
  have hend : ∀ u ∈ run (restrict (step asciiInitcap) fun db => Distinct db.toTables)
      (fun _ => True) Database.init (crashOn "windows" "x86_64"),
      loadOverview asciiLocale asIs u 0 true ≠ loadOverview asciiLocale asIs u 0 false := by
    decide +kernel
  have hreach := Reachable.of_run (.init trivial) hdb
  exact fun h => hend db hdb (h db hreach (recounted_of_reachable hreach) 0 asIs asIs)

/-- A crash whose report names no platform. -/
theorem switchIndependent_unknown : ∃ db : Database, db.events.rows.length = 1 ∧
    SwitchIndependent asciiLocale db 0 ∧ PlatformsReadAlike asciiLocale db.toTables 0 := by
  have hrun : (run (restrict (step asciiInitcap) fun db => Distinct db.toTables) (fun _ => True)
      Database.init (crashOn none "x86_64")).isSome := by
    decide +kernel
  obtain ⟨db, hdb⟩ := Option.isSome_iff_exists.mp hrun
  have hend : ∀ u ∈ run (restrict (step asciiInitcap) fun db => Distinct db.toTables)
      (fun _ => True) Database.init (crashOn none "x86_64"),
      u.events.rows.length = 1 ∧ u.releases.rows = [] ∧
        (∀ e ∈ windowEvents u.toTables 0, ∀ e' ∈ windowEvents u.toTables 0,
          cutKeyOf u.toTables e = cutKeyOf u.toTables e' ∧
            platformKeyOf u.toTables e' = platformKeyOf u.toTables e ∧
            platformLabelOf u.toTables e' = platformLabelOf u.toTables e) ∧
        (∀ e ∈ windowEvents u.toTables 0, platformLabelOf u.toTables e =
          rollupLabelOf asciiLocale u.toTables e) ∧
        ∀ e ∈ windowEvents u.toTables 0,
          LogTail.utf8Length (platformKeyOf u.toTables e) ≤ 256 := by
    decide +kernel
  obtain ⟨hlength, hreleases, hone, hlabel, hshort⟩ := hend db hdb
  have hrecounted : Recounted asciiLocale.initcap db :=
    recounted_of_reachable (Reachable.of_run (.init trivial) hdb)
  have hversions : ShortVersions db.toTables := fun r hr => by
    have hr : r ∈ db.releases.rows := hr
    rw [hreleases] at hr
    cases hr
  have halike : PlatformsReadAlike asciiLocale db.toTables 0 :=
    ⟨fun e he e' he' hne _ => absurd (hone e he e' he').1 hne,
      fun e he _ e' he' _ => (hone e he e' he').2,
      fun e he _ => congrArg (truncateText · 256) (hlabel e he)⟩
  have hsame := (switchIndependent_iff hrecounted hversions).1 halike
  exact ⟨db, hlength, hsame, (switchIndependent_iff hrecounted hversions).2 hshort hsame⟩

end FaultLane.DashboardOverview
