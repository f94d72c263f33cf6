import FaultLane.Base64Url
import FaultLane.IssueCursors
import FaultLane.LogTail
import FaultLane.SortDedup

set_option autoImplicit false

/-!
# Paging through the issues

Each request gives a page of the sorted issues that match. Its cursor stands for the last of them,
so following the cursors gives all.
-/
namespace FaultLane.IssueList
open Fallible RustText RowTexts JsonTexts KeyedTable

/-! ## One request -/

section order
variable {search : TextSearch} {issues : List (Issue search)}

theorem pairwise_sorted (h : (issues.map Issue.id).Nodup) :
    (sorted issues).Pairwise fun i j => j.key < i.key := by
  have : Std.Total fun i j : Issue search => j.key ≤ i.key := ⟨fun i j => le_total j.key i.key⟩
  have : IsTrans (Issue search) fun i j => j.key ≤ i.key := ⟨fun i j k hij hjk => le_trans hjk hij⟩
  have hpairwise : (sorted issues).Pairwise fun i j => j.key ≤ i.key :=
    List.pairwise_insertionSort _ issues
  have hids : (sorted issues).Pairwise fun i j => i.id ≠ j.id := by
    have hperm : (sorted issues).Perm issues := List.perm_insertionSort _ issues
    exact List.pairwise_map.mp ((hperm.map Issue.id).nodup_iff.mpr h)
  refine (hpairwise.and hids).imp fun {i j} hij => lt_of_le_of_ne hij.1 fun heq => hij.2 ?_
  exact (congrArg (fun k => (ofLex k).2) heq).symm

theorem mem_sorted {i : Issue search} : i ∈ sorted issues ↔ i ∈ issues :=
  List.mem_insertionSort _

/-- Lists that the order fixes are equal with their elements. -/
theorem sorted_filter (h : (issues.map Issue.id).Nodup) (p : Issue search → Bool) :
    sorted (issues.filter p) = (sorted issues).filter p := by
  have hfilter : ((issues.filter p).map Issue.id).Nodup :=
    h.sublist (List.filter_sublist.map Issue.id)
  refine @SortDedup.eq_of_increasing _ _ _ (fun i : Issue search => OrderDual.toDual i.key) _ _
    (pairwise_sorted hfilter) ((pairwise_sorted h).sublist List.filter_sublist) fun i => ?_
  rw [mem_sorted, List.mem_filter, List.mem_filter, mem_sorted]

end order

section requests
variable {s : Services} {dashboardEnabled : Bool} {db : Tables s.search} {scope : ProjectScope}
  {query : IssueListQuery} {c : Casts}

/-- The issues of the list, whatever the cursor. -/
def matching (db : Tables s.search) (f : IssueFilterIdentity) (c : Casts) :
    List (Issue s.search) :=
  sorted (db.issues.rows.filter (matchesFilters db f c))

theorem nodup_matching (f : IssueFilterIdentity) :
    ((db.issues.rows.filter (matchesFilters db f c)).map Issue.id).Nodup :=
  db.issues.unique.sublist (List.filter_sublist.map Issue.id)

theorem selectIssues_eq (f : IssueFilterIdentity) (cursor : Option IssueKey) (limit : Nat) :
    selectIssues db f { c with cursor := cursor } limit =
      (KeysetPage.below Issue.key (matching db f c) cursor).take (limit + 1) := by
  unfold selectIssues KeysetPage.below matching
  rw [← sorted_filter (nodup_matching f), List.filter_filter]
  congr 2
  refine List.filter_congr fun i _ => ?_
  rw [Bool.decide_and, Bool.decide_eq_true]
  rfl

/-- The text of the cursor behind a row. -/
def cursorText (s : Services) (projectId : Text) (query : IssueListQuery) (k : IssueKey) : Text :=
  s.encode (cursorAfter s projectId query (ofLex k).1 (ofLex k).2).toVec

theorem casts_cursor {f : IssueFilterIdentity} {cursor : Option IssueCursor}
    {k : Option IssueKey} (hc : casts s scope f none = some c) (hk : castCursor s cursor = some k) :
    casts s scope f cursor = some { c with cursor := k } := by
  unfold casts at hc ⊢
  obtain ⟨project, hproject, hc⟩ := Option.bind_eq_some_iff.mp hc
  obtain ⟨k', hk', hc⟩ := Option.bind_eq_some_iff.mp hc
  obtain ⟨releaseId, hrelease, hc⟩ := Option.bind_eq_some_iff.mp hc
  obtain ⟨t1, h1, hc⟩ := Option.bind_eq_some_iff.mp hc
  obtain ⟨t2, h2, hc⟩ := Option.bind_eq_some_iff.mp hc
  obtain ⟨t3, h3, hc⟩ := Option.bind_eq_some_iff.mp hc
  obtain ⟨t4, h4, hc⟩ := Option.bind_eq_some_iff.mp hc
  cases hc
  simp only [hproject, hk, hrelease, h1, h2, h3, h4, Option.bind_eq_bind, Option.bind_some]
  rfl

theorem castCursor_after (hs : s.Lawful) {t : Timestamp} {id : Uuid} (ht : t.year < 10 ^ 4) :
    castCursor s (some (cursorAfter s scope.projectId query t id)) =
      some (some (toLex (t, id))) := by
  have htime := hs.timestamptz_toChar t ht
  have hid : readUuid (uuidText id) = some id := readUuid_text
  simp only [castCursor, cursorAfter, htime, hid, Option.bind_eq_bind, Option.bind_some]
  rfl

/-- The times that the texts can hold. -/
def FourDigitYears (db : Tables s.search) : Prop := ∀ i ∈ db.issues, i.lastSeenAt.year < 10 ^ 4

theorem nextCursor_eq (hs : s.Lawful) {page : List (Issue s.search)} (hasNext : Bool)
    (hpage : ∀ i ∈ page, i.lastSeenAt.year < 10 ^ 4) :
    nextCursor s scope.projectId (issueFilterHash s query) hasNext
        (page.map (issueSummary db scope.projectId)) =
      .ok (if hasNext then
        (page.getLast?.map Issue.key).map (cursorText s scope.projectId query) else none) := by
  cases hasNext with
  | false => rfl
  | true =>
    rw [if_pos rfl]
    unfold nextCursor
    rw [List.getLast?_map]
    cases hlast : page.getLast? with
    | none => rfl
    | some i =>
      have hyear := hpage i (List.mem_of_getLast? hlast)
      have hencode : encodeIssueCursor s
          (cursorAfter s scope.projectId query i.lastSeenAt i.id) = _ := encode_cursorAfter hs hyear
      unfold cursorAfter at hencode
      dsimp only [issueSummary, Option.map_some]
      rw [hencode, ok_bind]
      rfl

theorem mem_below {f : IssueFilterIdentity} {cursor : Option IssueKey} {i : Issue s.search}
    (hi : i ∈ KeysetPage.below Issue.key (matching db f c) cursor) :
    i ∈ db.issues ∧ matchesFilters db f c i = true := by
  have hmem := mem_sorted.mp (List.mem_filter.mp hi).1
  exact List.mem_filter.mp hmem

/-- A query that the server takes up, whose times the database can read. -/
structure Served (s : Services) (dashboardEnabled : Bool) (query : IssueListQuery) : Prop where
  valid : validListQuery s query = true
  first : query.cursor = none
  enabled : dashboardFiltersRequested query = true → dashboardEnabled = true
  readable : ∀ t ∈ query.times, (s.timestamptz t).isSome

theorem validListQuery_cursor (cursor : Option Text) (hvalid : validListQuery s query = true)
    (hfirst : query.cursor = none)
    (hcursor : cursor.all (fun v => !v.isEmpty && byteLength v ≤ maxCursorBytes * 2) = true) :
    validListQuery s { query with cursor := cursor } = true := by
  have hnone : query.cursor.all (fun v => !v.isEmpty && byteLength v ≤ maxCursorBytes * 2) =
      true := by
    rw [hfirst]
    rfl
  unfold validListQuery at hvalid ⊢
  dsimp only
  rw [hcursor]
  rw [hnone] at hvalid
  exact hvalid

theorem cursorText_fits (hs : s.Lawful) {k : IssueKey} (hk : (ofLex k).1.year < 10 ^ 4) :
    (!(cursorText s scope.projectId query k).isEmpty &&
      byteLength (cursorText s scope.projectId query k) ≤ maxCursorBytes * 2) = true := by
  have hsize : (cursorAfter s scope.projectId query (ofLex k).1 (ofLex k).2).toVec.length ≤
      maxCursorBytes := length_toVec hs hk
  have hpos := toVec_pos (c := cursorAfter s scope.projectId query (ofLex k).1 (ofLex k).2)
  have hencoded : byteLength (cursorText s scope.projectId query k) = _ := hs.encode_size _
  unfold maxCursorBytes at hsize ⊢
  rw [Bool.and_eq_true_iff, Bool.not_eq_true', decide_eq_true_eq]
  constructor
  · refine Bool.eq_false_iff.mpr fun hempty => ?_
    rw [List.isEmpty_iff.mp hempty] at hencoded
    change 0 = _ at hencoded
    omega
  · omega

theorem listIssues_ok {decoded : Option IssueCursor} {next : Option Text}
    (hvalid : validListQuery s query = true)
    (henabled : dashboardFiltersRequested query = true → dashboardEnabled = true)
    (hdecoded : decodeCursor s scope.projectId (issueFilterHash s query) query.cursor = .ok decoded)
    (hcasts : casts s scope query.toIssueFilterIdentity decoded = some c)
    (hnext : nextCursor s scope.projectId (issueFilterHash s query)
      (decide (query.limit.getD defaultPageSize < (selectIssues db query.toIssueFilterIdentity c
        (query.limit.getD defaultPageSize)).length))
      (((selectIssues db query.toIssueFilterIdentity c (query.limit.getD defaultPageSize)).map
        (issueSummary db scope.projectId)).take (query.limit.getD defaultPageSize)) = .ok next) :
    listIssues s dashboardEnabled db scope query =
      .ok ⟨((selectIssues db query.toIssueFilterIdentity c (query.limit.getD defaultPageSize)).map
        (issueSummary db scope.projectId)).take (query.limit.getD defaultPageSize), next⟩ := by
  have hdashboard : ¬(dashboardFiltersRequested query = true ∧ ¬dashboardEnabled = true) :=
    fun h => h.2 (henabled h.1)
  unfold listIssues validateListQuery
  rw [if_pos hvalid, ok_bind, refuse_of_not hdashboard, ok_bind]
  dsimp only
  rw [hdecoded, ok_bind, hcasts, okOr_some, ok_bind, hnext, ok_bind]
  rfl

/-- The cursor of a key is read back as the key. -/
theorem decodeCursor_text (hs : s.Lawful) {cursor : Option IssueKey}
    (hcursor : ∀ k ∈ cursor, (ofLex k).1.year < 10 ^ 4) :
    ∃ decoded, decodeCursor s scope.projectId (issueFilterHash s query)
      (cursor.map (cursorText s scope.projectId query)) = .ok decoded ∧
        castCursor s decoded = some cursor := by
  cases cursor with
  | none => exact ⟨none, rfl, rfl⟩
  | some k =>
    have hyear := hcursor k rfl
    have hread : decodeIssueCursor s (cursorText s scope.projectId query k) scope.projectId
        (issueFilterHash s query) = _ := decode_cursorAfter hs hyear
    rw [if_pos ⟨rfl, rfl⟩] at hread
    refine ⟨some (cursorAfter s scope.projectId query (ofLex k).1 (ofLex k).2), ?_,
      castCursor_after hs hyear⟩
    rw [Option.map_some, decodeCursor, hread]
    rfl

theorem listIssues_page (hs : s.Lawful) (hyears : FourDigitYears db)
    (hserved : Served s dashboardEnabled query)
    (hcasts : casts s scope query.toIssueFilterIdentity none = some c) {cursor : Option IssueKey}
    (hcursor : ∀ k ∈ cursor, (ofLex k).1.year < 10 ^ 4) :
    listIssues s dashboardEnabled db scope
        { query with cursor := cursor.map (cursorText s scope.projectId query) } =
      .ok ⟨(KeysetPage.page Issue.key (query.limit.getD defaultPageSize)
          (matching db query.toIssueFilterIdentity c) cursor).map
            (issueSummary db scope.projectId),
        (KeysetPage.nextCursor Issue.key (query.limit.getD defaultPageSize)
          (matching db query.toIssueFilterIdentity c) cursor).map
            (cursorText s scope.projectId query)⟩ := by
  have hvalid : validListQuery s { query with
      cursor := cursor.map (cursorText s scope.projectId query) } = true := by
    refine validListQuery_cursor _ hserved.valid hserved.first ?_
    cases cursor with
    | none => rfl
    | some k => exact cursorText_fits hs (hcursor k rfl)
  obtain ⟨decoded, hdecoded, hcast⟩ := @decodeCursor_text s scope query hs cursor hcursor
  have hyear : ∀ i ∈ KeysetPage.page Issue.key (query.limit.getD defaultPageSize)
      (matching db query.toIssueFilterIdentity c) cursor, i.lastSeenAt.year < 10 ^ 4 :=
    fun i hi => hyears i (mem_below (List.mem_of_mem_take (List.mem_of_mem_take hi))).1
  have hitems : ((selectIssues db query.toIssueFilterIdentity { c with cursor := cursor }
      (query.limit.getD defaultPageSize)).map (issueSummary db scope.projectId)).take
        (query.limit.getD defaultPageSize) =
      (KeysetPage.page Issue.key (query.limit.getD defaultPageSize)
        (matching db query.toIssueFilterIdentity c) cursor).map
          (issueSummary db scope.projectId) := by
    rw [selectIssues_eq, ← List.map_take]
    rfl
  rw [← hitems]
  refine listIssues_ok hvalid hserved.enabled hdecoded (casts_cursor hcasts hcast) ?_
  dsimp only
  rw [hitems, selectIssues_eq]
  refine (nextCursor_eq hs _ hyear).trans ?_
  unfold KeysetPage.nextCursor
  by_cases hmore : query.limit.getD defaultPageSize < ((KeysetPage.below Issue.key
      (matching db query.toIssueFilterIdentity c) cursor).take
        (query.limit.getD defaultPageSize + 1)).length
  · rw [if_pos (decide_eq_true hmore), if_pos hmore]
    rfl
  · rw [if_neg (by rw [decide_eq_true_eq]; exact hmore), if_neg hmore]
    rfl

/-! ## Following the cursors -/

/-- The items of a page and of those that its cursor leads to. -/
def following (rest : Text → Option (List IssueSummary)) (response : IssueListResponse) :
    Option (List IssueSummary) :=
  match response.nextCursor with
  | none => some response.items
  | some next => (rest next).map (response.items ++ ·)

/-- The items of all pages from a cursor on, when the last of so many requests has no next one. -/
def listAll (s : Services) (dashboardEnabled : Bool) (db : Tables s.search) (scope : ProjectScope)
    (query : IssueListQuery) : Nat → Option Text → Option (List IssueSummary)
  | 0, _ => none
  | requests + 1, cursor =>
    (listIssues s dashboardEnabled db scope { query with cursor := cursor }).toOption.bind
      (following fun next => listAll s dashboardEnabled db scope query requests (some next))

theorem nextCursor_year (hyears : FourDigitYears db) {f : IssueFilterIdentity} {limit : Nat}
    {cursor : Option IssueKey} {k : IssueKey}
    (h : KeysetPage.nextCursor Issue.key limit (matching db f c) cursor = some k) :
    (ofLex k).1.year < 10 ^ 4 := by
  unfold KeysetPage.nextCursor at h
  split_ifs at h
  obtain ⟨i, hi, rfl⟩ := Option.map_eq_some_iff.mp h
  have hpage := List.mem_of_getLast? hi
  change i.lastSeenAt.year < 10 ^ 4
  exact hyears i (mem_below (List.mem_of_mem_take (List.mem_of_mem_take hpage))).1

/-- Induction on the requests; each cursor is the text of a key. -/
theorem listAll_eq (hs : s.Lawful) (hyears : FourDigitYears db)
    (hserved : Served s dashboardEnabled query)
    (hcasts : casts s scope query.toIssueFilterIdentity none = some c) (requests : Nat)
    {cursor : Option IssueKey} (hcursor : ∀ k ∈ cursor, (ofLex k).1.year < 10 ^ 4) :
    listAll s dashboardEnabled db scope query requests
        (cursor.map (cursorText s scope.projectId query)) =
      (KeysetPage.walk Issue.key (query.limit.getD defaultPageSize)
        (matching db query.toIssueFilterIdentity c) requests cursor).map
          (List.map (issueSummary db scope.projectId)) := by
  induction requests generalizing cursor with
  | zero => rfl
  | succ requests ih =>
    have hpage := listIssues_page hs hyears hserved hcasts hcursor
    rw [listAll, hpage, KeysetPage.walk, Except.toOption, Option.bind_some, following]
    cases hnext : KeysetPage.nextCursor Issue.key (query.limit.getD defaultPageSize)
        (matching db query.toIssueFilterIdentity c) cursor with
    | none => rfl
    | some k =>
      have hrest := ih fun k' hk' => Option.some.inj hk' ▸ nextCursor_year hyears hnext
      rw [Option.map_some] at hrest
      dsimp only [Option.map_some]
      rw [hrest, Option.map_map, Option.map_map]
      refine congrArg (fun f => Option.map f _) (funext fun rows => ?_)
      exact List.map_append.symm

theorem castOptional_some {α : Type} {cast : Text → Option α} {value : Option Text}
    (h : ∀ v ∈ value, (cast v).isSome) : ∃ a, castOptional cast value = some a := by
  cases value with
  | none => exact ⟨none, rfl⟩
  | some v =>
    obtain ⟨a, ha⟩ := Option.isSome_iff_exists.mp (h v rfl)
    exact ⟨some a, by rw [castOptional, ha]; rfl⟩

/-- What the checks say of the page limit and of the release. -/
theorem Served.checks (h : Served s dashboardEnabled query) :
    query.limit.all (fun limit => limit ≠ 0 && limit ≤ maxPageSize) = true ∧
      query.releaseId.all validUuid = true := by
  have hvalid := h.valid
  unfold validListQuery at hvalid
  simp only [Bool.and_eq_true] at hvalid
  obtain ⟨⟨⟨⟨⟨⟨⟨⟨⟨⟨⟨⟨⟨⟨hlimit, -⟩, hrelease⟩, -⟩, -⟩, -⟩, -⟩, -⟩, -⟩, -⟩, -⟩, -⟩, -⟩, -⟩, -⟩ :=
    hvalid
  exact ⟨hlimit, hrelease⟩

theorem Served.limit_pos (h : Served s dashboardEnabled query) :
    0 < query.limit.getD defaultPageSize := by
  have hlimit := h.checks.1
  cases hvalue : query.limit with
  | none => exact Nat.zero_lt_succ 49
  | some limit =>
    rw [hvalue, Option.all_some, Bool.and_eq_true_iff] at hlimit
    exact Nat.pos_of_ne_zero (of_decide_eq_true hlimit.1)

theorem Served.casts (h : Served s dashboardEnabled query) (scope : ProjectScope) :
    ∃ c, casts s scope query.toIssueFilterIdentity none = some c := by
  have hcast : ∀ o ∈ [query.firstSeenFrom, query.firstSeenTo, query.lastSeenFrom,
      query.lastSeenTo], ∃ t, castOptional s.timestamptz o = some t := by
    intro o ho
    exact castOptional_some fun v hv => h.readable v (List.mem_filterMap.mpr ⟨o, ho, hv⟩)
  have hrelease : ∀ v ∈ query.releaseId, (readUuid v).isSome := by
    intro v hv
    obtain ⟨id, hid⟩ := readUuid_of_valid ((Option.all_eq_true _ _).mp h.checks.2 v hv)
    exact Option.isSome_iff_exists.mpr ⟨id, hid⟩
  obtain ⟨project, hproject⟩ := readUuid_of_valid scope.valid
  obtain ⟨releaseId, hreleaseId⟩ := castOptional_some hrelease
  obtain ⟨t1, h1⟩ := hcast query.firstSeenFrom (by simp)
  obtain ⟨t2, h2⟩ := hcast query.firstSeenTo (by simp)
  obtain ⟨t3, h3⟩ := hcast query.lastSeenFrom (by simp)
  obtain ⟨t4, h4⟩ := hcast query.lastSeenTo (by simp)
  refine ⟨⟨⟨scope.organization, project⟩, none, releaseId, t1, t2, t3, t4⟩, ?_⟩
  unfold IssueList.casts
  simp only [castCursor, hproject, hreleaseId, h1, h2, h3, h4, Option.bind_eq_bind,
    Option.bind_some]
  rfl

/-- The cursor of an answer stands for one of its issues. -/
theorem exists_of_nextCursor (hs : s.Lawful) (hyears : FourDigitYears db)
    {response : IssueListResponse} {next : Text}
    (h : listIssues s dashboardEnabled db scope query = .ok response)
    (hnext : response.nextCursor = some next) :
    ∃ i ∈ db.issues, next = cursorText s scope.projectId query i.key := by
  unfold listIssues at h
  obtain ⟨query', hquery, h⟩ := bind_eq_ok.mp h
  unfold validateListQuery at hquery
  split_ifs at hquery
  cases hquery
  obtain ⟨_, -, h⟩ := bind_eq_ok.mp h
  obtain ⟨decoded, -, h⟩ := bind_eq_ok.mp h
  obtain ⟨c, -, h⟩ := bind_eq_ok.mp h
  obtain ⟨next', hnext', h⟩ := bind_eq_ok.mp h
  cases h
  cases (show next' = some next from hnext)
  rw [← List.map_take] at hnext'
  have hmem : ∀ i ∈ (selectIssues db query.toIssueFilterIdentity c
      (query.limit.getD defaultPageSize)).take (query.limit.getD defaultPageSize),
        i ∈ db.issues := by
    intro i hi
    have hselected := mem_sorted.mp (List.mem_of_mem_take (List.mem_of_mem_take hi))
    exact (List.mem_filter.mp hselected).1
  rw [nextCursor_eq hs _ fun i hi => hyears i (hmem i hi)] at hnext'
  have hsome := Except.ok.inj hnext'
  split_ifs at hsome
  obtain ⟨k, hk, rfl⟩ := Option.map_eq_some_iff.mp hsome
  obtain ⟨i, hi, rfl⟩ := Option.map_eq_some_iff.mp hk
  exact ⟨i, hmem i (List.mem_of_getLast? hi), rfl⟩

/-- Following the cursors of a query that the server takes up gives all issues that match, each
once, in the order of the list. A cursor is accepted for the project and the filters of the request
that gave it, and for no others unless the digests of two filters collide. -/
theorem listIssues_complete (hs : s.Lawful) (hyears : FourDigitYears db) :
    (Served s dashboardEnabled query → ∃ (c : Casts) (rows : List (Issue s.search)),
      casts s scope query.toIssueFilterIdentity none = some c ∧
      listAll s dashboardEnabled db scope query (rows.length + 1) none =
        some (rows.map (issueSummary db scope.projectId)) ∧
      rows.Pairwise (fun i j => j.key < i.key) ∧
      ∀ i, i ∈ rows ↔ i ∈ db.issues ∧ matchesFilters db query.toIssueFilterIdentity c i = true) ∧
    ∀ response next, listIssues s dashboardEnabled db scope query = .ok response →
      response.nextCursor = some next → ∀ projectId (other : IssueListQuery),
      (s.sha256 query.toVec = s.sha256 other.toVec → query.toVec = other.toVec) →
      ((∃ c, decodeIssueCursor s next projectId (issueFilterHash s other) = .ok c) ↔
        projectId = scope.projectId ∧
          other.toIssueFilterIdentity = query.toIssueFilterIdentity) := by
  constructor
  · intro hserved
    obtain ⟨c, hc⟩ := hserved.casts scope
    have hsorted : (matching db query.toIssueFilterIdentity c).Pairwise fun i j => j.key < i.key :=
      pairwise_sorted (nodup_matching query.toIssueFilterIdentity)
    have hwalk := KeysetPage.walk_complete hserved.limit_pos hsorted
    have hall := @listAll_eq s dashboardEnabled db scope query c hs hyears hserved hc
      ((matching db query.toIssueFilterIdentity c).length + 1) none nofun
    refine ⟨c, matching db query.toIssueFilterIdentity c, hc, ?_, hsorted, fun i => ?_⟩
    · rw [Option.map_none] at hall
      rw [hall, hwalk, Option.map_some]
    · unfold matching
      rw [mem_sorted, List.mem_filter]
      rfl
  · intro response next hresponse hnext projectId other hdigest
    obtain ⟨i, hi, rfl⟩ := exists_of_nextCursor hs hyears hresponse hnext
    have hdecode : decodeIssueCursor s (cursorText s scope.projectId query i.key) projectId
        (issueFilterHash s other) = _ := decode_cursorAfter hs (hyears i hi)
    rw [hdecode]
    constructor
    · rintro ⟨c, hc⟩
      split_ifs at hc with hsame
      refine ⟨hsame.1.symm, (toVec_injective (hdigest (digest_of_hash hsame.2))).symm⟩
    · rintro ⟨rfl, hfilters⟩
      have hhash : issueFilterHash s query = issueFilterHash s other := by
        unfold issueFilterHash
        rw [hfilters]
      exact ⟨_, if_pos ⟨rfl, hhash⟩⟩

end requests

/-! ### Two issues that were last seen at one time -/

def emptyDigest : List UInt8 :=
  [113, 7, 61, 160, 155, 219, 183, 1, 102, 94, 70, 74, 73, 75, 84, 113, 102, 5, 84, 202, 115, 221,
    227, 12, 203, 124, 136, 132, 249, 198, 223, 67]

def resolvedDigest : List UInt8 :=
  [155, 254, 67, 178, 229, 224, 11, 159, 216, 104, 187, 143, 145, 246, 42, 195, 202, 90, 22, 132,
    98, 103, 191, 255, 37, 243, 201, 175, 249, 159, 196, 209]

def assertDigest : List UInt8 :=
  [27, 124, 214, 174, 167, 203, 199, 124, 66, 211, 28, 166, 11, 213, 251, 99, 18, 176, 184, 70, 70,
    109, 172, 24, 108, 253, 58, 129, 68, 189, 9, 213]

def resolvedFilter : IssueFilterIdentity := { status := some "resolved".toList }

def assertFilter : IssueFilterIdentity := { crashType := some "assert".toList }

def readField (name : Text) (t : Text) : Option (Text × Text) :=
  (stripPrefix (quote name ++ [':']) t).bind unquote

/-- A cursor of the first version in its compact form. -/
def readCursor (t : Text) : Option IssueCursor := do
  let t ← stripPrefix (Char.ofNat 0x7b :: (quote "version".toList ++ ":1,".toList)) t
  let (projectId, t) ← readField "project_id".toList t
  let t ← stripPrefix [','] t
  let (filterHash, t) ← readField "filter_hash".toList t
  let t ← stripPrefix [','] t
  let (lastSeenAt, t) ← readField "last_seen_at".toList t
  let t ← stripPrefix [','] t
  let (issueId, t) ← readField "issue_id".toList t
  if t = [Char.ofNat 0x7d] then some ⟨1, projectId, filterHash, lastSeenAt, issueId⟩ else none

theorem stripPrefix_append (p t : Text) : stripPrefix p (p ++ t) = some t := by
  unfold stripPrefix
  rw [if_pos (List.isPrefixOf_iff_prefix.mpr (List.prefix_append p t)), List.drop_left]

theorem readField_field (name value t : Text) :
    readField name (quote name ++ ':' :: (quote value ++ t)) = some (value, t) := by
  have hsplit : quote name ++ ':' :: (quote value ++ t) =
      quote name ++ [':'] ++ (quote value ++ t) := by
    rw [List.append_assoc]
    rfl
  unfold readField
  rw [hsplit, stripPrefix_append, Option.bind_some, unquote_quote]

theorem readCursor_json (c : IssueCursor) (h : c.version = 1) : readCursor c.json = some c := by
  obtain ⟨version, projectId, filterHash, lastSeenAt, issueId⟩ := c
  cases (show version = 1 from h)
  have hjson : IssueCursor.json ⟨1, projectId, filterHash, lastSeenAt, issueId⟩ =
      Char.ofNat 0x7b :: (quote "version".toList ++ ":1,".toList) ++
        (quote "project_id".toList ++ ':' :: (quote projectId ++ ([','] ++
          (quote "filter_hash".toList ++ ':' :: (quote filterHash ++ ([','] ++
            (quote "last_seen_at".toList ++ ':' :: (quote lastSeenAt ++ ([','] ++
              (quote "issue_id".toList ++ ':' :: (quote issueId ++
                [Char.ofNat 0x7d]))))))))))) := by
    have hone : (toString (1 : UInt8)).toList = ['1'] := by decide
    have hversion : ":1,".toList = [':', '1', ','] := by decide
    simp only [IssueCursor.json, object, members, hone, hversion, List.append_assoc,
      List.cons_append, List.nil_append]
  rw [hjson, readCursor]
  simp only [Option.bind_eq_bind]
  rw [stripPrefix_append, Option.bind_some, readField_field, Option.bind_some]
  dsimp only
  rw [stripPrefix_append, Option.bind_some, readField_field, Option.bind_some]
  dsimp only
  rw [stripPrefix_append, Option.bind_some, readField_field, Option.bind_some]
  dsimp only
  rw [stripPrefix_append, Option.bind_some, readField_field, Option.bind_some]
  exact if_pos rfl

/-- Nanoseconds since 1970. -/
def instant (t : Timestamp) : Int :=
  let (year, month) := if t.month ≤ 2 then (t.year - 1, t.month + 9) else (t.year, t.month - 3)
  let days := 365 * year + year / 4 - year / 100 + year / 400 + (153 * month + 2) / 5 + t.day - 1
  (((days - 719468 : Int) * 24 + t.hour) * 60 + t.minute) * 60000000000 + t.second * 1000000000 +
    t.microsecond * 1000

def sampleSearch : TextSearch where
  Vector := Text
  Query := Text
  toTsvector := id
  plaintoTsquery := id
  numnode q := if q = [] then 0 else 1
  found v q := contains q v

def sampleServices : Services where
  sha256 bytes :=
    if bytes = ({} : IssueFilterIdentity).toVec then emptyDigest
    else if bytes = resolvedFilter.toVec then resolvedDigest else assertDigest
  encode := Base64Url.encode
  decode := Base64Url.decode
  fromSlice bytes := (LogTail.fromUtf8 bytes).bind fun text => readCursor text.toList
  parse t := (readTime t).map instant
  timestamptz := readTime
  search := sampleSearch

theorem sampleServices_lawful : sampleServices.Lawful where
  digest_length bytes := by
    dsimp only [sampleServices]
    split_ifs <;> rfl
  decode_encode := Base64Url.decode_encode
  encode_size bytes := by
    refine (byteLength_of_ascii (Base64Url.utf8Size_encode bytes)).trans ?_
    exact Base64Url.length_encode bytes
  fromSlice_toVec c hc := by
    dsimp only [sampleServices]
    rw [IssueCursor.toVec, LogTail.fromUtf8_utf8, Option.bind_some, String.toList_ofList,
      readCursor_json c hc]
  parse_toChar t ht := by
    dsimp only [sampleServices]
    rw [readTime_toChar ht]
    rfl
  timestamptz_toChar t ht := readTime_toChar ht

def sampleOwner : Owner := ⟨1, 2⟩

def sampleTime : Timestamp where
  year := 2026
  month := 2
  day := 28
  hour := 23
  minute := 59
  second := 59
  microsecond := 999999
  year_pos := by decide
  month_mem := by decide
  day_mem := by decide
  hour_lt := by decide
  minute_lt := by decide
  second_lt := by decide
  microsecond_lt := by decide

def sampleIssue (id : Uuid) : Issue sampleSearch where
  id := id
  owner := sampleOwner
  fingerprintAlgorithm := "crash".toList
  fingerprintVersion := 1
  fingerprint := []
  title := "Assertion failed".toList
  status := .open
  regressionState := .new
  firstSeenAt := sampleTime
  lastSeenAt := sampleTime
  eventCount := 1
  representativeEventId := 7
  firstReleaseId := none
  lastReleaseId := none
  resolvedInReleaseId := none
  resolvedAt := none
  searchVector := none

/-- Two issues, one of which has an event that is an assertion. -/
def sampleTables : Tables sampleServices.search where
  issues := ⟨[sampleIssue 3, sampleIssue 4], by decide⟩
  crashEvents := [⟨7, sampleOwner, some 3, none, .processed, some 8⟩]
  crashEventSearch :=
    [⟨sampleOwner, 7, 8, [], some "assert".toList, none, none, none, .readable, none⟩]
  contextFacets := []
  issueReleases := []

def sampleScope : ProjectScope := ⟨1, uuidText 2, validUuid_text⟩

theorem sampleTables_years : FourDigitYears sampleTables := by
  intro i hi
  rcases List.mem_cons.mp hi with rfl | hi
  · decide
  · rw [List.mem_singleton.mp hi]
    decide

/-- One issue to a page. -/
def sampleQuery : IssueListQuery := { limit := some 1 }

theorem sampleQuery_served : Served sampleServices true sampleQuery where
  valid := by decide
  first := rfl
  enabled := nofun
  readable := nofun

theorem sampleQuery_casts :
    casts sampleServices sampleScope sampleQuery.toIssueFilterIdentity none =
      some ⟨sampleOwner, none, none, none, none, none, none⟩ := by
  have hproject : readUuid (uuidText 2) = some 2 := readUuid_text
  unfold casts
  dsimp only [sampleScope, sampleQuery, castCursor, castOptional]
  rw [hproject]
  simp only [Option.bind_eq_bind, Option.bind_some, sampleOwner]
  rfl

theorem listIssues_complete_ties :
    (∃ (c : Casts) (rows : List (Issue sampleServices.search)),
      casts sampleServices sampleScope sampleQuery.toIssueFilterIdentity none = some c ∧
      listAll sampleServices true sampleTables sampleScope sampleQuery (rows.length + 1) none =
        some (rows.map (issueSummary sampleTables sampleScope.projectId)) ∧
      rows.Pairwise (fun i j => j.key < i.key) ∧
      ∀ i, i ∈ rows ↔ i ∈ sampleTables.issues ∧
        matchesFilters sampleTables sampleQuery.toIssueFilterIdentity c i = true) ∧
    ∃ response next, listIssues sampleServices true sampleTables sampleScope sampleQuery =
        .ok response ∧ response.nextCursor = some next ∧
      ((∃ c, decodeIssueCursor sampleServices next sampleScope.projectId
        (issueFilterHash sampleServices ⟨resolvedFilter, none, none⟩) = .ok c) ↔
        sampleScope.projectId = sampleScope.projectId ∧
          resolvedFilter = sampleQuery.toIssueFilterIdentity) := by
  have hcomplete := @listIssues_complete sampleServices true sampleTables sampleScope sampleQuery
    sampleServices_lawful sampleTables_years
  refine ⟨hcomplete.1 sampleQuery_served, ?_⟩
  have hpage := @listIssues_page sampleServices true sampleTables sampleScope sampleQuery _
    sampleServices_lawful sampleTables_years sampleQuery_served sampleQuery_casts none nofun
  have hnext : KeysetPage.nextCursor Issue.key 1 (matching sampleTables
      sampleQuery.toIssueFilterIdentity ⟨sampleOwner, none, none, none, none, none, none⟩) none =
        some (toLex (sampleTime, 4)) := by
    decide +kernel
  have hdigest : sampleServices.sha256 sampleQuery.toVec = sampleServices.sha256
      resolvedFilter.toVec → sampleQuery.toVec = resolvedFilter.toVec := by
    decide +kernel
  change listIssues sampleServices true sampleTables sampleScope sampleQuery = .ok ⟨_, _⟩ at hpage
  rw [show sampleQuery.limit.getD defaultPageSize = 1 from rfl, hnext, Option.map_some] at hpage
  exact ⟨_, _, hpage, rfl, hcomplete.2 _ _ hpage rfl sampleScope.projectId
    ⟨resolvedFilter, none, none⟩ hdigest⟩

/-- Without the dashboard, its filters are not served, whatever matches. -/
theorem not_listed_gated :
    ¬∀ (s : Services) (dashboardEnabled : Bool) (db : Tables s.search) (scope : ProjectScope)
      (query : IssueListQuery), s.Lawful → FourDigitYears db → validListQuery s query = true →
      query.cursor = none → ∃ n c items,
        casts s scope query.toIssueFilterIdentity none = some c ∧
        listAll s dashboardEnabled db scope query n none = some items ∧
        ∀ i ∈ db.issues, matchesFilters db query.toIssueFilterIdentity c i = true →
          issueSummary db scope.projectId i ∈ items := by
  intro h
  have hvalid : validListQuery sampleServices ⟨assertFilter, none, none⟩ = true := by
    decide +kernel
  obtain ⟨n, c, items, -, hall, -⟩ := h sampleServices false sampleTables sampleScope
    ⟨assertFilter, none, none⟩ sampleServices_lawful sampleTables_years hvalid rfl
  have hrefused : listIssues sampleServices false sampleTables sampleScope
      ⟨assertFilter, none, none⟩ = .error .notFound := by
    unfold listIssues validateListQuery
    rw [if_pos hvalid, ok_bind, refuse_of ⟨rfl, Bool.false_ne_true⟩, error_bind]
  cases n with
  | zero => cases hall
  | succ n =>
    rw [listAll] at hall
    change (listIssues sampleServices false sampleTables sampleScope
      ⟨assertFilter, none, none⟩).toOption.bind _ = some items at hall
    rw [hrefused] at hall
    cases hall

end FaultLane.IssueList
