import SecureCore.Relational.Select
import SecureCore.Service.AuditService

/-! # The statements of AuditRepository::list and count

The text of a query and the values bound to it are made by two functions, each with a
counter of its own. Here both are kept apart as in the source, and the queries are shown
to be the ones that `AuditRepository` answers. -/

namespace SecureCore.AuditStatements

set_option autoImplicit false

open Relational

inductive Column where
  | id | actorUserId | eventType | outcome | targetType | targetId | requestId | clientIp
  | userAgent | metadataJson | createdAt
  deriving DecidableEq, Repr

def Column.ofName : String → Option Column
  | "id" => some .id
  | "actor_user_id" => some .actorUserId
  | "event_type" => some .eventType
  | "outcome" => some .outcome
  | "target_type" => some .targetType
  | "target_id" => some .targetId
  | "request_id" => some .requestId
  | "client_ip" => some .clientIp
  | "user_agent" => some .userAgent
  | "metadata_json" => some .metadataJson
  | "created_at" => some .createdAt
  | _ => none

def optionalInteger : Option Int → Value
  | some n => .integer n
  | none => .null

def columnValue (event : AuditEvent) : Column → Value
  | .id => .integer event.id
  | .actorUserId => optionalInteger event.actorUserId
  | .eventType => .text event.eventType
  | .outcome => .text event.outcome
  | .targetType => .text event.targetType
  | .targetId => optionalInteger event.targetId
  | .requestId => .text event.requestId
  | .clientIp => .text event.clientIp
  | .userAgent => .text event.userAgent
  | .metadataJson => .text event.metadataJson
  | .createdAt => .text event.createdAt

/-! ## Statement -/

def makeSqliteError (operation : String) (error : SqliteError) : String :=
  operation ++ " failed with SQLite code " ++ toString error.code ++ ": " ++ error.message

/-- AuditRepositoryError is a runtime_error. -/
def check {α : Type} (operation : String) : Except SqliteError α → Except Exception α
  | .ok a => .ok a
  | .error e => .error (.runtimeError (makeSqliteError operation e))

abbrev Statement := Relational.Prepared Column

def prepareStatement (sql : String) : Except Exception Statement :=
  check "Preparing audit query" (prepare Column.ofName "audit_events" "id" sql)

def bindInt64 (statement : Statement) (index : Nat) (value : Int) : Except Exception Statement :=
  check "Binding audit integer" (statement.bind index (.integer value))

def bindText (statement : Statement) (index : Nat) (value : String) : Except Exception Statement :=
  check "Binding audit text" (statement.bind index (.text value))

/-- The columns that are read so hold integers. -/
def columnInt64 (row : List Value) (index : Nat) : Int :=
  match row[index]? with
  | some (.integer n) => n
  | _ => 0

def columnOptionalInt64 (row : List Value) (index : Nat) : Option Int :=
  match row[index]? with
  | some .null | none => none
  | some _ => some (columnInt64 row index)

def columnText (row : List Value) (index : Nat) : String :=
  match row[index]? with
  | some (.text s) => s
  | some (.integer n) => toString n
  | _ => ""

def readEvent (row : List Value) : AuditEvent where
  id := columnInt64 row 0
  actorUserId := columnOptionalInt64 row 1
  eventType := columnText row 2
  outcome := columnText row 3
  targetType := columnText row 4
  targetId := columnOptionalInt64 row 5
  requestId := columnText row 6
  clientIp := columnText row 7
  userAgent := columnText row 8
  metadataJson := columnText row 9
  createdAt := columnText row 10

/-! ## build_filter_sql and bind_filter -/

def countSql : String := "SELECT COUNT(*) FROM audit_events WHERE 1 = 1"

def listSql : String := "
SELECT
    id,
    actor_user_id,
    event_type,
    outcome,
    target_type,
    target_id,
    request_id,
    client_ip,
    user_agent,
    metadata_json,
    created_at
FROM audit_events
WHERE 1 = 1
"

def buildFilterSql (filter : AuditEventFilter) (countOnly : Bool) : String := Id.run do
  let mut sql := if countOnly then countSql else listSql
  let mut parameter := 1
  if filter.actorUserId.isSome then
    sql := sql ++ (" AND actor_user_id = ?" ++ toString parameter)
    parameter := parameter + 1
  if !filter.eventType.isEmpty then
    sql := sql ++ (" AND event_type = ?" ++ toString parameter)
    parameter := parameter + 1
  if !filter.outcome.isEmpty then
    sql := sql ++ (" AND outcome = ?" ++ toString parameter)
    parameter := parameter + 1
  if !countOnly then
    sql := sql ++ (" ORDER BY id DESC LIMIT ?" ++ toString parameter)
    parameter := parameter + 1
    sql := sql ++ (" OFFSET ?" ++ toString parameter)
  return sql ++ ";"

def bindFilter (statement : Statement) (filter : AuditEventFilter) (includePagination : Bool) :
    Except Exception Statement := do
  let parameter := 1
  let (statement, parameter) ← match filter.actorUserId with
    | some actor => do pure (← bindInt64 statement parameter actor, parameter + 1)
    | none => pure (statement, parameter)
  let (statement, parameter) ←
    if !filter.eventType.isEmpty then do
      pure (← bindText statement parameter filter.eventType, parameter + 1)
    else pure (statement, parameter)
  let (statement, parameter) ←
    if !filter.outcome.isEmpty then do
      pure (← bindText statement parameter filter.outcome, parameter + 1)
    else pure (statement, parameter)
  if includePagination then
    let statement ← bindInt64 statement parameter filter.limit
    let parameter := parameter + 1
    bindInt64 statement parameter filter.offset
  else pure statement

/-! ## list and count -/

def list (events : Table AuditEvent) (filter : AuditEventFilter) : Except Exception (List AuditEvent) := do
  AuditRepository.validateFilter filter
  let statement ← prepareStatement (buildFilterSql filter false)
  let statement ← bindFilter statement filter true
  let rows ← check "Listing audit events" (statement.rows columnValue events)
  return rows.map readEvent

def count (events : Table AuditEvent) (filter : AuditEventFilter) : Except Exception Int := do
  AuditRepository.validateFilter filter
  let statement ← prepareStatement (buildFilterSql filter true)
  let statement ← bindFilter statement filter false
  match ← check "Counting audit events" (statement.rows columnValue events) with
  | row :: _ => return columnInt64 row 0
  | [] => .error (.runtimeError (makeSqliteError "Counting audit events" ⟨101, "no more rows available"⟩))

/-! ## What the text asks for -/

def allColumns : List Column :=
  [.id, .actorUserId, .eventType, .outcome, .targetType, .targetId, .requestId, .clientIp, .userAgent,
    .metadataJson, .createdAt]

theorem readEvent_columns (event : AuditEvent) : readEvent (allColumns.map (columnValue event)) = event := by
  obtain ⟨id, actorUserId, eventType, outcome, targetType, targetId⟩ := event
  cases actorUserId <;> cases targetId <;> rfl

/-- The columns with a criterion, in the order of the text. -/
def filterColumns (filter : AuditEventFilter) : List Column :=
  (if filter.actorUserId.isSome then [.actorUserId] else []) ++
    (if filter.eventType.isEmpty then [] else [.eventType]) ++
      if filter.outcome.isEmpty then [] else [.outcome]

/-- The value that a criterion compares its column to. -/
def filterValue (filter : AuditEventFilter) : Column → Value
  | .actorUserId => optionalInteger filter.actorUserId
  | .eventType => .text filter.eventType
  | .outcome => .text filter.outcome
  | _ => .null

/-- Criterion number i compares to placeholder number i, and the page comes after them. -/
def filterQuery (filter : AuditEventFilter) (countOnly : Bool) : Select Column where
  output := if countOnly then .count else .columns allColumns
  conditions := (filterColumns filter).zipIdx 1
  page := if countOnly then none
    else some ((filterColumns filter).length + 1, (filterColumns filter).length + 2)

/-- What is bound to the placeholders, from number 1 on. -/
def boundValues (filter : AuditEventFilter) (includePagination : Bool) : List Value :=
  (filterColumns filter).map (filterValue filter) ++
    if includePagination then [.integer filter.limit, .integer filter.offset] else []

theorem tokens_countSql : sqlTokens countSql =
    ["SELECT", "COUNT", "(", "*", ")", "FROM", "audit_events", "WHERE", "1", "=", "1"] := by
  rw [sqlTokens, show countSql = String.ofList _ from rfl, String.toList_ofList]
  rfl

set_option maxRecDepth 2000 in
theorem tokens_listSql : sqlTokens listSql =
    ["SELECT", "id", ",", "actor_user_id", ",", "event_type", ",", "outcome", ",", "target_type", ",",
      "target_id", ",", "request_id", ",", "client_ip", ",", "user_agent", ",", "metadata_json", ",",
      "created_at", "FROM", "audit_events", "WHERE", "1", "=", "1"] := by
  rw [sqlTokens, show listSql = String.ofList _ from rfl, String.toList_ofList]
  rfl

theorem tokens_part (part : String) (before : List Char) (words : List String)
    (hPart : part.toList = ' ' :: before ++ [' ', '?']) (hWords : tokensFrom [] before = words)
    (sql : String) (n : Nat) :
    sqlTokens (sql ++ (part ++ toString n)) = sqlTokens sql ++ (words ++ [placeholder n]) := by
  rw [tokens_append (c := ' ') (by rw [String.toList_append, hPart]; rfl) (by decide),
    tokens_placeholder hPart, ← hWords]
  rfl

theorem tokens_end (sql : String) : sqlTokens (sql ++ ";") = sqlTokens sql ++ [";"] := by
  rw [tokens_append (c := ';') rfl (by decide)]
  rfl

theorem readSelect_countSql (rest : List String) :
    readSelect Column.ofName "audit_events" "id" (sqlTokens countSql ++ rest) = (do
      let (conditions, rest) ← readConditions Column.ofName rest
      some ⟨.count, conditions, ← readPage "id" rest⟩) := by
  rw [tokens_countSql]
  rfl

theorem readSelect_listSql (rest : List String) :
    readSelect Column.ofName "audit_events" "id" (sqlTokens listSql ++ rest) = (do
      let (conditions, rest) ← readConditions Column.ofName rest
      some ⟨.columns allColumns, conditions, ← readPage "id" rest⟩) := by
  rw [tokens_listSql]
  rfl

/-- The eight shapes of a filter, each in both modes, are read token by token. -/
theorem readSelect_buildFilterSql (filter : AuditEventFilter) (countOnly : Bool) :
    readSelect Column.ofName "audit_events" "id" (sqlTokens (buildFilterSql filter countOnly)) =
      some (filterQuery filter countOnly) := by
  have hActor := tokens_part " AND actor_user_id = ?" "AND actor_user_id =".toList
    ["AND", "actor_user_id", "="] (by decide) (by decide)
  have hType := tokens_part " AND event_type = ?" "AND event_type =".toList
    ["AND", "event_type", "="] (by decide) (by decide)
  have hOutcome := tokens_part " AND outcome = ?" "AND outcome =".toList
    ["AND", "outcome", "="] (by decide) (by decide)
  have hLimit := tokens_part " ORDER BY id DESC LIMIT ?" "ORDER BY id DESC LIMIT".toList
    ["ORDER", "BY", "id", "DESC", "LIMIT"] (by decide) (by decide)
  have hOffset := tokens_part " OFFSET ?" "OFFSET".toList ["OFFSET"] (by decide) (by decide)
  obtain ⟨actor, eventType, outcome, limit, offset⟩ := filter
  cases countOnly <;> cases actor <;> cases hNoType : eventType.isEmpty <;> cases hNoOutcome : outcome.isEmpty
  all_goals
    simp only [buildFilterSql, filterQuery, filterColumns, hNoType, hNoOutcome, Id.run, pure, Option.isSome,
      Bool.not_true, Bool.not_false, if_true, Bool.false_eq_true, if_false, hActor, hType, hOutcome, hLimit,
      hOffset, tokens_end, List.append_assoc, readSelect_countSql, readSelect_listSql]
    simp [readConditions, readPage, Column.ofName, readPlaceholder_placeholder]

theorem prepareStatement_buildFilterSql (filter : AuditEventFilter) (countOnly : Bool) :
    prepareStatement (buildFilterSql filter countOnly) =
      .ok ⟨filterQuery filter countOnly, List.replicate (boundValues filter (!countOnly)).length .null⟩ := by
  have hLargest : (filterQuery filter countOnly).placeholders.foldl max 0 =
      (boundValues filter (!countOnly)).length := by
    obtain ⟨actor, eventType, outcome, limit, offset⟩ := filter
    cases countOnly <;> cases actor <;> cases hType : eventType.isEmpty <;> cases hOutcome : outcome.isEmpty <;>
      simp [filterQuery, Select.placeholders, boundValues, filterColumns, hType, hOutcome]
  rw [prepareStatement, prepare, readSelect_buildFilterSql]
  simp only [hLargest, check]

/-- The counter of bind_filter runs like that of build_filter_sql: nothing stays unbound. -/
theorem bindFilter_prepared (filter : AuditEventFilter) (select : Select Column) (includePagination : Bool) :
    bindFilter ⟨select, List.replicate (boundValues filter includePagination).length .null⟩ filter
      includePagination = .ok ⟨select, boundValues filter includePagination⟩ := by
  obtain ⟨actor, eventType, outcome, limit, offset⟩ := filter
  cases includePagination <;> cases actor <;> cases hType : eventType.isEmpty <;>
    cases hOutcome : outcome.isEmpty <;>
    simp [bindFilter, boundValues, filterColumns, filterValue, optionalInteger, hType, hOutcome, bindInt64, bindText,
      check, Prepared.bind, List.replicate_succ, bind, Except.bind, pure, Except.pure]

/-! ## What the rows are -/

theorem keeps_boundValues (filter : AuditEventFilter) (countOnly includePagination : Bool) (event : AuditEvent) :
    Prepared.keeps columnValue ⟨filterQuery filter countOnly, boundValues filter includePagination⟩ event =
      AuditRepository.selects filter event := by
  obtain ⟨actor, eventType, outcome, limit, offset⟩ := filter
  obtain ⟨id, eventActor, storedType, storedOutcome⟩ := event
  cases actor <;> cases hNoType : eventType.isEmpty <;> cases hNoOutcome : outcome.isEmpty <;> cases eventActor <;>
    simp [Prepared.keeps, Prepared.value, filterQuery, filterColumns, boundValues, filterValue, columnValue,
      optionalInteger, Value.equals, AuditRepository.selects, hNoType, hNoOutcome, Bool.and_assoc]

theorem filter_keeps (events : Table AuditEvent) (filter : AuditEventFilter) (countOnly includePagination : Bool) :
    events.rows.filter (Prepared.keeps columnValue
        ⟨filterQuery filter countOnly, boundValues filter includePagination⟩) =
      events.rows.filter (AuditRepository.selects filter) :=
  List.filter_congr (fun event _ => keeps_boundValues filter countOnly includePagination event)

theorem value_limit (filter : AuditEventFilter) (select : Select Column) :
    Prepared.value ⟨select, boundValues filter true⟩ ((filterColumns filter).length + 1) =
      .integer filter.limit := by
  simp [Prepared.value, boundValues]

theorem value_offset (filter : AuditEventFilter) (select : Select Column) :
    Prepared.value ⟨select, boundValues filter true⟩ ((filterColumns filter).length + 2) =
      .integer filter.offset := by
  simp [Prepared.value, boundValues]

theorem of_validateFilter {filter : AuditEventFilter} (h : AuditRepository.validateFilter filter = .ok ()) :
    0 < filter.limit ∧ filter.limit ≤ 100 ∧ 0 ≤ filter.offset := by
  rw [AuditRepository.validateFilter] at h
  split at h
  · cases h
  · rename_i hPage
    simp only [Bool.or_eq_true, decide_eq_true_eq, not_or, Int.not_le, Int.not_lt] at hPage
    omega

/-- The statement of list answers what the repository answers. -/
theorem list_eq (events : Table AuditEvent) (filter : AuditEventFilter) :
    list events filter = AuditRepository.list events filter := by
  rw [list, AuditRepository.list]
  cases hValid : AuditRepository.validateFilter filter with
  | error e => rfl
  | ok =>
    obtain ⟨hLimit, -, -⟩ := of_validateFilter hValid
    have hRows : Prepared.rows columnValue ⟨filterQuery filter false, boundValues filter true⟩ events =
        .ok ((((events.rows.filter (AuditRepository.selects filter)).reverse.drop filter.offset.toNat).take
          filter.limit.toNat).map (fun event => allColumns.map (columnValue event))) := by
      have hPage : (filterQuery filter false).page =
          some ((filterColumns filter).length + 1, (filterColumns filter).length + 2) := rfl
      rw [Prepared.rows, Prepared.selected]
      simp only [hPage, value_limit, value_offset]
      rw [filter_keeps, newestFirst_filter, Prepared.window, if_neg (by omega)]
      rfl
    have hPrepare := prepareStatement_buildFilterSql filter false
    have hBind := bindFilter_prepared filter (filterQuery filter false) true
    rw [Bool.not_false] at hPrepare
    simp only [bind, Except.bind, pure, Except.pure, hPrepare, hBind, hRows, check, List.map_map]
    rw [show readEvent ∘ (fun event => allColumns.map (columnValue event)) = id from funext readEvent_columns,
      List.map_id]

theorem count_eq (events : Table AuditEvent) (filter : AuditEventFilter) :
    count events filter = (AuditRepository.count events filter).map Int.ofNat := by
  rw [count, AuditRepository.count]
  cases hValid : AuditRepository.validateFilter filter with
  | error e => rfl
  | ok =>
    have hRows : Prepared.rows columnValue ⟨filterQuery filter true, boundValues filter false⟩ events =
        .ok [[.integer (events.rows.countP (AuditRepository.selects filter))]] := by
      have hPage : (filterQuery filter true).page = none := rfl
      rw [Prepared.rows, Prepared.selected]
      simp only [hPage]
      rw [filter_keeps, List.countP_eq_length_filter]
      rfl
    have hPrepare := prepareStatement_buildFilterSql filter true
    have hBind := bindFilter_prepared filter (filterQuery filter true) false
    rw [Bool.not_true] at hPrepare
    simp only [bind, Except.bind, pure, Except.pure, hPrepare, hBind, hRows, check]
    rfl

/-! ## Pages -/

/-- What a filter asks for. -/
structure Matches (filter : AuditEventFilter) (event : AuditEvent) : Prop where
  actorUserId : ∀ actor, filter.actorUserId = some actor → event.actorUserId = some actor
  eventType : filter.eventType ≠ "" → event.eventType = filter.eventType
  outcome : filter.outcome ≠ "" → event.outcome = filter.outcome

theorem selects_iff (filter : AuditEventFilter) (event : AuditEvent) :
    AuditRepository.selects filter event = true ↔ Matches filter event := by
  have hEmpty (s : String) : s.isEmpty = true ↔ s = "" := String.isEmpty_iff
  obtain ⟨actor, eventType, outcome, limit, offset⟩ := filter
  constructor
  · intro h
    simp only [AuditRepository.selects, Bool.and_eq_true, Bool.or_eq_true, beq_iff_eq, hEmpty] at h
    obtain ⟨⟨hActor, hType⟩, hOutcome⟩ := h
    refine ⟨?_, hType.resolve_left, hOutcome.resolve_left⟩
    rintro _ rfl
    simpa using hActor
  · intro h
    simp only [AuditRepository.selects, Bool.and_eq_true, Bool.or_eq_true, beq_iff_eq, hEmpty]
    refine ⟨⟨?_, Classical.or_iff_not_imp_left.mpr h.eventType⟩, Classical.or_iff_not_imp_left.mpr h.outcome⟩
    cases actor with
    | none => rfl
    | some actor => simpa using h.actorUserId actor rfl

theorem validateFilter_eq_ok {filter : AuditEventFilter} (hType : filter.eventType.length ≤ 96)
    (hOutcome : filter.outcome = "" ∨ filter.outcome = "success" ∨ filter.outcome = "failure")
    (hPositive : 1 ≤ filter.limit) (hLimit : filter.limit ≤ 100) (hOffset : 0 ≤ filter.offset) :
    AuditRepository.validateFilter filter = .ok () := by
  have hPage : (decide (filter.limit ≤ 0) || decide (100 < filter.limit) || decide (filter.offset < 0)) = false := by
    simp only [Bool.or_eq_false_iff, decide_eq_false_iff_not]
    omega
  rw [AuditRepository.validateFilter, if_neg (by rw [hPage]; decide), if_neg (by omega), if_neg ?_]
  obtain h | h | h := hOutcome <;> rw [h] <;> decide

/-- The pages of a filter run through its events once, from the newest to the oldest, and
the count is their number whatever the page it is asked with. -/
theorem audit_queries_exact (events : Table AuditEvent) (actorUserId : Option Int) (eventType outcome : String)
    (pageSize : Int) (hType : eventType.length ≤ 96)
    (hOutcome : outcome = "" ∨ outcome = "success" ∨ outcome = "failure") (hPositive : 1 ≤ pageSize)
    (hSize : pageSize ≤ 100) :
    ∃ (pages : Nat → List AuditEvent) (listed : List AuditEvent),
      (∀ page : Nat, list events ⟨actorUserId, eventType, outcome, pageSize, page * pageSize⟩ = .ok (pages page)) ∧
      (∀ n : Nat, listed.length ≤ n * pageSize → (List.range n).flatMap pages = listed) ∧
      (∀ event, event ∈ listed ↔
        event ∈ events.rows ∧ Matches ⟨actorUserId, eventType, outcome, pageSize, 0⟩ event) ∧
      listed.Pairwise (fun newer older => older.id < newer.id) ∧
      ∀ limit offset : Int, 1 ≤ limit → limit ≤ 100 → 0 ≤ offset →
        count events ⟨actorUserId, eventType, outcome, limit, offset⟩ = .ok listed.length := by
  let chosen := events.rows.filter (AuditRepository.selects ⟨actorUserId, eventType, outcome, pageSize, 0⟩)
  obtain ⟨size, rfl⟩ := Int.eq_ofNat_of_zero_le (Int.le_trans (by decide) hPositive)
  refine ⟨fun page => (chosen.reverse.drop (page * size)).take size, chosen.reverse, ?_, ?_, ?_, ?_, ?_⟩
  · intro page
    have hOffset : (0 : Int) ≤ page * size := Int.mul_nonneg (Int.natCast_nonneg page) (Int.natCast_nonneg size)
    rw [list_eq, AuditRepository.list, validateFilter_eq_ok hType hOutcome hPositive hSize hOffset]
    rfl
  · intro n hn
    have hLength : chosen.reverse.length ≤ n * size := by exact_mod_cast hn
    rw [flatMap_pages, List.take_of_length_le hLength]
  · intro event
    rw [List.mem_reverse, List.mem_filter, selects_iff]
  · exact List.pairwise_reverse.mpr (events.ordered.filter _)
  · intro limit offset hLimit hLimitLe hOffset
    rw [count_eq, AuditRepository.count, validateFilter_eq_ok hType hOutcome hLimit hLimitLe hOffset,
      List.length_reverse, ← List.countP_eq_length_filter]
    rfl

theorem audit_queries_exact_sample :
    let login : AuditEvent := ⟨0, some 7, "auth.login", "failure", "user", some 7, "", "", "", "{}", "2024"⟩
    let logout : AuditEvent := ⟨0, some 7, "auth.logout", "success", "user", some 7, "", "", "", "{}", "2024"⟩
    let events : Table AuditEvent := ((Table.empty.insert login).insert logout).insert login
    ∃ (pages : Nat → List AuditEvent) (listed : List AuditEvent),
      (∀ page : Nat, list events ⟨some 7, "auth.login", "failure", 1, page * 1⟩ = .ok (pages page)) ∧
      (∀ n : Nat, listed.length ≤ n * (1 : Int) → (List.range n).flatMap pages = listed) ∧
      (∀ event, event ∈ listed ↔ event ∈ events.rows ∧ Matches ⟨some 7, "auth.login", "failure", 1, 0⟩ event) ∧
      listed.Pairwise (fun newer older => older.id < newer.id) ∧
      ∀ limit offset : Int, 1 ≤ limit → limit ≤ 100 → 0 ≤ offset →
        count events ⟨some 7, "auth.login", "failure", limit, offset⟩ = .ok listed.length :=
  audit_queries_exact _ (some 7) "auth.login" "failure" 1 (by decide) (by decide) (by decide) (by decide)

end SecureCore.AuditStatements
