import GatewaySystem.Business.Handlers
import GatewaySystem.Lib.FlatJson
import Mathlib.Algebra.Order.BigOperators.Group.List

/-!
# The log

A `LOG_PUSH` that is accepted becomes one call of `LogStorage::append`, which
writes its argument and a newline. The payload is part of the argument as the
client sent it, and JSON allows a newline between any two tokens, so a payload
that is accepted may hold newlines of its own: what is acknowledged is one line
of the log where it does not.
-/

namespace GatewaySystem

/-! ### Texts of terminated lines -/

section Lines

variable {α : Type*} {sep : α} {lines : List (List α)}

/-- A text that terminates each of some lines. -/
def terminated (sep : α) (lines : List (List α)) : List α := (lines.map (· ++ [sep])).flatten

theorem terminated_append (sep : α) (lines lines' : List (List α)) :
    terminated sep (lines ++ lines') = terminated sep lines ++ terminated sep lines' := by
  simp [terminated]

variable [BEq α]

theorem length_splitOn (sep : α) (text : List α) :
    (text.splitOn sep).length = text.count sep + 1 := by
  induction text with
  | nil => rfl
  | cons head tail ih =>
      rw [List.splitOn_cons_eq_if_modifyHead]
      split
      · next hsep => rw [List.length_cons, ih, List.count_cons, if_pos hsep]
      · next hsep => rw [List.length_modifyHead, ih, List.count_cons, if_neg hsep]

variable [LawfulBEq α]

theorem count_terminated (sep : α) (lines : List (List α)) :
    (terminated sep lines).count sep = lines.length + (lines.map (List.count sep)).sum := by
  induction lines with
  | nil => rfl
  | cons line lines ih =>
      rw [terminated] at ih ⊢
      simp only [List.map_cons, List.flatten_cons, List.count_append, ih, List.length_cons,
        List.sum_cons, List.count_singleton_self]
      omega

/-- A text reads back as the lines it terminates where none of them holds the
separator. -/
theorem splitOn_terminated_iff :
    (terminated sep lines).splitOn sep = lines ++ [[]] ↔ ∀ line ∈ lines, sep ∉ line := by
  constructor
  · intro h line hline hmem
    have hlength := congrArg List.length h
    rw [length_splitOn, count_terminated, List.length_append, List.length_singleton] at hlength
    have hle : line.count sep ≤ (lines.map (List.count sep)).sum :=
      List.single_le_sum (by simp) _ (List.mem_map_of_mem hline)
    have hpos := List.count_pos_iff.mpr hmem
    omega
  · intro h
    induction lines with
    | nil => rfl
    | cons line lines ih =>
        have hline := h line List.mem_cons_self
        rw [terminated, List.map_cons, List.flatten_cons, List.append_assoc, List.singleton_append,
          List.splitOn_append_cons_self_of_not_mem hline]
        exact congrArg (line :: ·) (ih fun line' hline' => h line' (List.mem_cons_of_mem _ hline'))

end Lines

namespace Business

/-- What a stream does with a text it is given. -/
inductive WriteOutcome where
  | written
  /-- The stream fails, after a part of the text. -/
  | failed (kept : ℕ)
  deriving DecidableEq, Repr

structure LogStorage where
  useStdout : Bool
  isOpen : Bool
  output : Bytes
  deriving DecidableEq, Repr

namespace LogStorage

/-- `LogStorage::append`. -/
def append (storage : LogStorage) (outcome : WriteOutcome) (logLine : Bytes) : Bool × LogStorage :=
  if !storage.useStdout && !storage.isOpen then (false, storage)
  else
    match outcome with
    | .written => (true, { storage with output := storage.output ++ (logLine ++ [10]) })
    | .failed kept =>
        (false, { storage with output := storage.output ++ (logLine ++ [10]).take kept })

/-- There is a stream to write to. -/
def Ready (storage : LogStorage) : Prop := storage.useStdout = true ∨ storage.isOpen = true

theorem append_written {storage : LogStorage} (h : storage.Ready) (logLine : Bytes) :
    storage.append .written logLine =
      (true, { storage with output := storage.output ++ (logLine ++ [10]) }) := by
  refine if_neg fun hclosed => ?_
  rcases h with h | h <;> simp [h] at hclosed

end LogStorage

/-- The fields of `struct tm` that are written, with the year and month of the
calendar. -/
structure TimeInfo where
  year : ℤ
  month : ℕ
  day : ℕ
  hour : ℕ
  minute : ℕ
  second : ℕ
  deriving DecidableEq, Repr

/-- A number of at least two digits. -/
def twoDigits (n : ℕ) : Bytes := (if n < 10 then text "0" else []) ++ Decimal.format n

/-- `std::put_time` with `[%Y-%m-%d %H:%M:%S]`. -/
def TimeInfo.format (time : TimeInfo) : Bytes :=
  text "[" ++ Decimal.format time.year ++ text "-" ++ twoDigits time.month ++ text "-" ++
    twoDigits time.day ++ text " " ++ twoDigits time.hour ++ text ":" ++ twoDigits time.minute ++
    text ":" ++ twoDigits time.second ++ text "]"

/-- A request with the time it is handled at and what the stream does. -/
structure LogPush where
  request : Request
  time : TimeInfo
  outcome : WriteOutcome

/-- What `handleLogPush` writes before the payload. -/
def LogPush.header (push : LogPush) : Bytes :=
  push.time.format ++ text " fd=" ++ Decimal.format push.request.fd ++ text " request_id=" ++
    Decimal.format push.request.requestId.toNat ++ text " payload="

/-- The line of a request. -/
def LogPush.line (push : LogPush) : Bytes := push.header ++ push.request.payload

/-- The request passes the checks before `LogStorage::append`. -/
def accepted (library : Json.Library) (request : Request) : Bool :=
  request.payload ≠ [] && request.payload.length ≤ 4096 &&
    match library.parse request.payload with
    | .ok json => isLogEntry json
    | .error _ => false

/-- `handleLogPush` with the storage. -/
def pushLog (library : Json.Library) (storage : LogStorage) (push : LogPush) :
    Option Response × LogStorage :=
  if accepted library push.request then
    let appended := storage.append push.outcome push.line
    (handleLogPush library ⟨appended.1, {}⟩ push.request, appended.2)
  else (handleLogPush library ⟨false, {}⟩ push.request, storage)

/-- Requests one after another, with their answers. -/
def pushLogs (library : Json.Library) :
    LogStorage → List LogPush → List (LogPush × Option Response) × LogStorage
  | storage, [] => ([], storage)
  | storage, push :: pushes =>
      let first := pushLog library storage push
      let rest := pushLogs library first.2 pushes
      ((push, first.1) :: rest.1, rest.2)

/-- The requests that are answered with `LOG_ACK`. -/
def acknowledged (answers : List (LogPush × Option Response)) : List LogPush :=
  answers.filterMap fun answer =>
    if answer.2.any fun response => response.type = .logAck then some answer.1 else none

variable {library : Json.Library} {storage : LogStorage} {push : LogPush} {pushes : List LogPush}

/-- A request that is not accepted is answered without the log. -/
theorem handleLogPush_of_refused {request : Request} (h : accepted library request = false)
    (env : WorkerEnv) :
    (handleLogPush library env request).any (fun response => response.type = .logAck) = false := by
  unfold handleLogPush
  split
  · rfl
  · next hempty =>
      split
      · rfl
      · next hlength =>
          unfold accepted at h
          split
          · rfl
          · rfl
          · next json hjson =>
              rw [hjson] at h
              have hentry : isLogEntry json = false := by
                simpa [hempty, not_lt.mp hlength] using h
              rw [hentry]
              rfl

/-- A request that is accepted is acknowledged where it is written. -/
theorem handleLogPush_of_accepted {request : Request} (h : accepted library request = true)
    (counters : StatsCounters) :
    (handleLogPush library ⟨true, counters⟩ request).any
      (fun response => response.type = .logAck) = true := by
  unfold accepted at h
  simp only [Bool.and_eq_true, decide_eq_true_eq] at h
  obtain ⟨⟨hempty, hlength⟩, hentry⟩ := h
  rw [handleLogPush, if_neg hempty, if_neg (not_lt.mpr hlength)]
  split at hentry
  · next json hjson =>
      rw [hjson]
      simp only [hentry, if_true]
      rfl
  · cases hentry

/-- A request is acknowledged where it is accepted, and then adds its line. -/
theorem pushLog_spec (library : Json.Library) (hready : storage.Ready)
    (hwritten : push.outcome = .written) :
    (pushLog library storage push).2.Ready ∧
      (pushLog library storage push).1.any (fun response => response.type = .logAck) =
        accepted library push.request ∧
      (pushLog library storage push).2.output = storage.output ++ terminated 10
        (([push].filter fun push => accepted library push.request).map LogPush.line) := by
  unfold pushLog
  split
  · next haccepted =>
      rw [hwritten, LogStorage.append_written hready]
      exact ⟨hready, (handleLogPush_of_accepted haccepted _).trans haccepted.symm,
        by simp [haccepted, terminated]⟩
  · next hrefused =>
      have hrefused : accepted library push.request = false := by simpa using hrefused
      exact ⟨hready, (handleLogPush_of_refused hrefused _).trans hrefused.symm,
        by simp [hrefused, terminated]⟩

/-- The requests that are acknowledged are those that are accepted, and the log
gains a terminated line for each. -/
theorem pushLogs_spec (library : Json.Library) (hready : storage.Ready)
    (hwritten : ∀ push ∈ pushes, push.outcome = .written) :
    acknowledged (pushLogs library storage pushes).1 =
        pushes.filter (fun push => accepted library push.request) ∧
      (pushLogs library storage pushes).2.output = storage.output ++ terminated 10
        ((pushes.filter fun push => accepted library push.request).map LogPush.line) := by
  induction pushes generalizing storage with
  | nil => simp [pushLogs, acknowledged, terminated]
  | cons push pushes ih =>
      obtain ⟨hready', hanswer, houtput⟩ := pushLog_spec library hready
        (hwritten push List.mem_cons_self)
      obtain ⟨hanswers, hrest⟩ :=
        ih hready' fun later hlater => hwritten later (List.mem_cons_of_mem _ hlater)
      constructor
      · rw [acknowledged] at hanswers
        rw [pushLogs, acknowledged, List.filterMap_cons, hanswer, hanswers, List.filter_cons]
        cases accepted library push.request <;> rfl
      · rw [pushLogs, hrest, houtput, List.append_assoc, ← terminated_append, ← List.map_append,
          ← List.filter_append, List.singleton_append]

theorem newline_not_mem_format (n : ℤ) : (10 : UInt8) ∉ Decimal.format n :=
  Decimal.notMem_format (by decide) (by decide)

theorem newline_not_mem_twoDigits (n : ℕ) : (10 : UInt8) ∉ twoDigits n := by
  unfold twoDigits
  rw [List.mem_append, not_or]
  refine ⟨?_, newline_not_mem_format n⟩
  split <;> decide

/-- Only the payload can hold a newline. -/
theorem newline_mem_line (push : LogPush) :
    (10 : UInt8) ∈ push.line ↔ (10 : UInt8) ∈ push.request.payload := by
  have hheader : (10 : UInt8) ∉ push.header := by
    simp only [LogPush.header, TimeInfo.format, List.mem_append, not_or,
      newline_not_mem_format, newline_not_mem_twoDigits, not_false_eq_true, and_true]
    decide
  rw [LogPush.line, List.mem_append, or_iff_right hheader]

/-- The log gains one line for each acknowledgement, with the descriptor, the
number and the payload of its request, where no payload that is accepted holds a
newline. -/
theorem log_lines_iff (library : Json.Library) {storage : LogStorage} (hready : storage.Ready)
    {pushes : List LogPush} (hwritten : ∀ push ∈ pushes, push.outcome = .written) :
    ∃ gained, (pushLogs library storage pushes).2.output = storage.output ++ gained ∧
      (gained.splitOn 10 =
          (acknowledged (pushLogs library storage pushes).1).map LogPush.line ++ [[]] ↔
        ∀ push ∈ pushes, accepted library push.request = true →
          (10 : UInt8) ∉ push.request.payload) := by
  obtain ⟨hanswers, houtput⟩ := pushLogs_spec library hready hwritten
  refine ⟨_, houtput, ?_⟩
  rw [hanswers, splitOn_terminated_iff, List.forall_mem_map]
  simp only [List.mem_filter, newline_mem_line, and_imp]

namespace Sample

/-- The text of a log entry, with a text after its first brace. -/
def entry (space : String) : Bytes :=
  text "\x7b" ++ text space ++
    text "\"level\":\"INFO\",\"service\":\"s\",\"message\":\"m\"\x7d"

def logPush (payload : Bytes) : LogPush where
  request :=
    { fd := 7, connId := 1, version := 1, type := .logPush, requestId := 9, payload := payload }
  time := ⟨2026, 1, 2, 3, 4, 5⟩
  outcome := .written

/-- Two entries, with a text that has newlines and is none between them. -/
def entries : List LogPush :=
  [logPush (entry " "), logPush (text "\n[]\n"), logPush (entry "\t")]

/-- The log on the standard output. -/
def console : LogStorage where
  useStdout := true
  isOpen := false
  output := []

end Sample

/-- The two entries are one line each, and the refused text is none. -/
theorem log_lines_iff_refused :
    ∃ gained, (pushLogs Json.flatLibrary Sample.console Sample.entries).2.output = gained ∧
      gained.splitOn 10 = [(Sample.logPush (Sample.entry " ")).line,
        (Sample.logPush (Sample.entry "\t")).line, []] := by
  obtain ⟨gained, houtput, hiff⟩ := log_lines_iff Json.flatLibrary
    (show Sample.console.Ready from .inl rfl)
    (show ∀ push ∈ Sample.entries, push.outcome = .written by simp [Sample.entries, Sample.logPush])
  refine ⟨gained, houtput, ?_⟩
  rw [hiff.mpr (by decide +kernel)]
  decide +kernel

/-- An entry with a newline is acknowledged, and is two lines. -/
theorem log_lines_newline :
    ((pushLogs Json.flatLibrary Sample.console [Sample.logPush (Sample.entry "\n")]).1.map
        fun answer => answer.2.map Response.type) = [some .logAck] ∧
      ((pushLogs Json.flatLibrary Sample.console
        [Sample.logPush (Sample.entry "\n")]).2.output.splitOn 10) =
        [text "[2026-01-02 03:04:05] fd=7 request_id=9 payload=\x7b",
          text "\"level\":\"INFO\",\"service\":\"s\",\"message\":\"m\"\x7d", []] := by
  decide +kernel

end Business

end GatewaySystem
