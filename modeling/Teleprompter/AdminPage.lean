import Teleprompter.DisplayedTimes
import Teleprompter.MarkupEvents
import Teleprompter.RelayServer

/-!
# The dashboard of the relay

The relay shows its daemons and their sessions on a page for its operator. Ids
of daemons and sessions come from anybody and are escaped. So the markup of the
page depends on how many daemons there are and which of them are online and on
nothing else, and its cells read back as the ids, states and times.
-/

namespace Teleprompter.AdminPage

open FiniteDictionary MarkupEvents RelayServer
open RelayRegistry (DaemonState)
open DisplayedTimes (iso8601Millis)

section Page

/-- Escape the significant characters one after the other. -/
def escapeHtml (s : List Char) : List Char :=
  replaceChar '\'' "&#39;".toList (replaceChar '"' "&quot;".toList (replaceChar '>' "&gt;".toList
    (replaceChar '<' "&lt;".toList (replaceChar '&' "&amp;".toList s))))

/-- A row of the table. -/
structure AdminDaemonRow where
  id : List Char
  online : Bool
  sessions : List (List Char)
  lastSeenIso : List Char

def badgeClass (online : Bool) : List Char :=
  if online then "badge-on".toList else "badge-off".toList

def statusText (online : Bool) : List Char := if online then "online".toList else "offline".toList

/-- The static texts of a row, in order. -/
def beforeId : List Char := "<tr><td style=\"font-family:monospace;font-size:.85rem\">".toList

def beforeClass : List Char := "</td>\n<td><span class=\"badge ".toList

def afterClass : List Char := "\">".toList

def afterStatus : List Char := "</span></td>\n<td>".toList

def beforeTime : List Char := "</td>\n<td style=\"color:#888;font-size:.85rem\">".toList

def afterTime : List Char := "</td></tr>".toList

def sessionsHtml (sessions : List (List Char)) : List Char :=
  if sessions.isEmpty then "—".toList else ", ".toList.intercalate (sessions.map escapeHtml)

/-- The part of a row with the state. -/
def statusHtml (online : Bool) : List Char :=
  beforeClass ++ badgeClass online ++ afterClass ++ statusText online ++ afterStatus

def rowHtml (d : AdminDaemonRow) : List Char :=
  beforeId ++ (escapeHtml d.id ++ (statusHtml d.online ++ (sessionsHtml d.sessions ++
    (beforeTime ++ (d.lastSeenIso ++ afterTime)))))

/-- What stands around the rows. -/
def tableStart : List Char :=
  "\n<table><tr><th>ID</th><th>Status</th><th>Sessions</th><th>Last Seen</th></tr>\n".toList

def tableEnd : List Char := "\n</table>".toList

def emptyTable : List Char := "<p style=\"color:#666\">No daemons connected</p>".toList

def tableHtml (rows : List AdminDaemonRow) : List Char :=
  if rows.isEmpty then emptyTable else tableStart ++ (rows.flatMap rowHtml ++ tableEnd)

/-- The page up to the number of clients. -/
def pageHead : List Char :=
  ["<!DOCTYPE html>\n", "<html><head><title>Teleprompter Relay</title>\n",
    "<meta charset=\"utf-8\"><meta name=\"viewport\" content=\"width=device-width\">\n",
    "<style>body\x7bfont-family:system-ui;background:#111;color:#eee;padding:2rem;",
    "max-width:800px;margin:0 auto\x7d\n", "h1\x7bcolor:#fff;font-size:1.5rem\x7d",
    "table\x7bwidth:100%;border-collapse:collapse;margin:1rem 0\x7d\n",
    "td,th\x7bpadding:.5rem;text-align:left;border-bottom:1px solid #333\x7d\n",
    "th\x7bcolor:#888;font-size:.75rem;text-transform:uppercase\x7d",
    ".ok\x7bcolor:#4ade80\x7d.off\x7bcolor:#666\x7d\n",
    ".badge\x7bdisplay:inline-block;padding:2px 8px;border-radius:4px;font-size:.75rem\x7d\n",
    ".badge-on\x7bbackground:#166534;color:#4ade80\x7d",
    ".badge-off\x7bbackground:#333;color:#888\x7d\n",
    "#refresh\x7bcolor:#60a5fa;cursor:pointer;font-size:.75rem\x7d</style></head>\n",
    "<body><h1>Teleprompter Relay</h1>\n", "<p>Clients: <b>"].flatMap String.toList

/-- The page between its uptime and the number of its daemons. -/
def pageMiddle : List Char :=
  ["s</b>\n", "<span id=\"refresh\" onclick=\"location.reload()\"> ↻ refresh</span></p>\n",
    "<h2 style=\"font-size:1rem;color:#888\">Daemons ("].flatMap String.toList

def beforeUptime : List Char := "</b> | Uptime: <b>".toList

def beforeTable : List Char := ")</h2>\n".toList

def pageEnd : List Char := "\n</body></html>".toList

def natText (n : ℕ) : List Char := Nat.toDigits 10 n

def renderAdminHtml (clients uptime : ℕ) (rows : List AdminDaemonRow) : List Char :=
  pageHead ++ (natText clients ++ (beforeUptime ++ (natText uptime ++ (pageMiddle ++
    (natText rows.length ++ (beforeTable ++ (tableHtml rows ++ pageEnd)))))))

end Page

section Handler

/-- The row of a daemon. -/
def adminRow (id : String) (s : DaemonState) : AdminDaemonRow where
  id := id.toList
  online := s.online
  sessions := s.sessions.map String.toList
  lastSeenIso := ((iso8601Millis (UInt64.ofNat s.lastSeen)).getD "").toList

/-- The page for what the relay holds. -/
def adminHtml (core : RelayCore) (uptime : ℕ) : List Char :=
  renderAdminHtml (countWhere (fun _ h => h.auth.isSome) core.conns) uptime
    (core.registry.daemonStates.entries.map fun e => adminRow e.1 e.2)

/-- Answers of the handler. -/
inductive AdminResponse where
  | notFound
  | unauthorized
  | page (html : List Char)

variable {Digest : Type} [DecidableEq Digest] (keyedDigest : List Char → Digest)

/-- The header carries the token; digests are compared. -/
def bearerOk (authorization : Option (List Char)) (expected : List Char) : Bool :=
  match authorization with
  | none => false
  | some value =>
    if "Bearer ".toList <+: value then
      decide (keyedDigest (value.drop "Bearer ".toList.length) = keyedDigest expected)
    else false

/-- The page is shown to who has the token; without one there is no page. -/
def admin (adminToken authorization : Option (List Char)) (core : RelayCore) (uptime : ℕ) :
    AdminResponse :=
  match adminToken.filter (!·.isEmpty) with
  | none => .notFound
  | some expected =>
    if !bearerOk keyedDigest authorization expected then .unauthorized
    else .page (adminHtml core uptime)

end Handler

section Escapes

/-- Replacing one after the other is replacing at once. -/
theorem escapeHtml_eq (s : List Char) : escapeHtml s = s.flatMap entity := by
  have hamp : "&amp;".toList = _ := String.toList_ofList
  have hlt : "&lt;".toList = _ := String.toList_ofList
  have hgt : "&gt;".toList = _ := String.toList_ofList
  have hquot : "&quot;".toList = _ := String.toList_ofList
  have hapos : "&#39;".toList = _ := String.toList_ofList
  have hfirst : replaceChar '&' "&amp;".toList s =
      s.flatMap fun c => if c = '&' then "&amp;".toList else [c] := rfl
  rw [escapeHtml, hfirst, replaceChar_flatMap, replaceChar_flatMap, replaceChar_flatMap,
    replaceChar_flatMap]
  refine congrArg (s.flatMap ·) (funext fun c => ?_)
  rw [entity, hamp, hlt, hgt, hquot, hapos]
  split_ifs with h₁ h₂ h₃ h₄ h₅
  · decide +kernel
  · rw [h₂]
    decide +kernel
  · rw [h₃]
    decide +kernel
  · rw [h₄]
    decide +kernel
  · rw [h₅]
    decide +kernel
  · simp [replaceChar, h₂, h₃, h₄, h₅]

theorem unescape_escapeHtml (s : List Char) : unescape (escapeHtml s) = s := by
  rw [escapeHtml_eq, unescape_flatMap]

theorem notMem_escapeHtml (s : List Char) : '<' ∉ escapeHtml s := by
  rw [escapeHtml_eq]
  exact notMem_flatMap_entity s

/-- Sessions as they are shown. -/
def sessionsText (sessions : List (List Char)) : List Char :=
  if sessions.isEmpty then "—".toList else ", ".toList.intercalate sessions

theorem sessionsHtml_spec (sessions : List (List Char)) :
    '<' ∉ sessionsHtml sessions ∧ unescape (sessionsHtml sessions) = sessionsText sessions := by
  have hsep : ", ".toList = _ := String.toList_ofList
  rw [sessionsHtml, sessionsText, hsep]
  split
  · have hdash : "—".toList = _ := String.toList_ofList
    rw [hdash]
    exact ⟨by decide, by decide +kernel⟩
  · clear * -
    induction sessions with
    | nil => exact ⟨List.not_mem_nil, rfl⟩
    | cons sid sessions ih =>
      cases sessions with
      | nil =>
        rw [List.map_cons, List.map_nil, List.intercalate_singleton, List.intercalate_singleton]
        exact ⟨notMem_escapeHtml sid, unescape_escapeHtml sid⟩
      | cons next sessions =>
        rw [List.map_cons, List.map_cons, List.intercalate_cons_cons, List.intercalate_cons_cons,
          ← List.map_cons]
        constructor
        · simp only [List.mem_append, not_or]
          exact ⟨⟨notMem_escapeHtml sid, by decide⟩, ih.1⟩
        · rw [List.append_assoc, List.append_assoc, escapeHtml_eq sid, unescape_flatMap_append,
            List.cons_append, List.cons_append, List.nil_append, unescape_plain (by decide),
            unescape_plain (by decide), ih.2]
          rfl

end Escapes

section Cells

def cellStart : List Char := ['t', 'd']

def cellEnd : List Char := ['/', 't', 'd']

/-- The tag opens a cell of the table. -/
def isCellStart (content : List Char) : Bool :=
  content == cellStart || decide (cellStart ++ [' '] <+: content)

/-- The texts of the cells, with their entities read. -/
def readCells : Option (List Char) → List Event → List (List Char)
  | _, [] => []
  | none, .char _ :: es => readCells none es
  | none, .tag content :: es =>
    if isCellStart content then readCells (some []) es else readCells none es
  | some text, .char c :: es => readCells (some (text ++ [c])) es
  | some text, .tag content :: es =>
    if content = cellEnd then unescape text :: readCells none es
    else readCells (some text) es

theorem readCells_none_chars (s : List Char) (es : List Event) :
    readCells none (s.map .char ++ es) = readCells none es := by
  induction s with
  | nil => rfl
  | cons c s ih => rw [List.map_cons, List.cons_append, readCells, ih]

theorem readCells_some_chars (text s : List Char) (es : List Event) :
    readCells (some text) (s.map .char ++ es) = readCells (some (text ++ s)) es := by
  induction s generalizing text with
  | nil => rw [List.map_nil, List.nil_append, List.append_nil]
  | cons c s ih => rw [List.map_cons, List.cons_append, readCells, ih, List.append_assoc]; rfl

/-- Tags without cells are passed over. -/
def Cellless (es : List Event) : Prop := ∀ content ∈ tags es, isCellStart content = false

instance (es : List Event) : Decidable (Cellless es) := inferInstanceAs (Decidable (∀ _ ∈ _, _))

theorem readCells_cellless {es : List Event} (h : Cellless es) (es' : List Event) :
    readCells none (es ++ es') = readCells none es' := by
  induction es with
  | nil => rfl
  | cons e es ih =>
    cases e with
    | char c => exact ih h
    | tag content =>
      have hcontent : isCellStart content = false := h content List.mem_cons_self
      rw [List.cons_append, readCells, hcontent, if_neg Bool.false_ne_true]
      exact ih fun tag htag => h tag (List.mem_cons_of_mem content htag)

/-- A piece of the page without cells. -/
def Static (s : List Char) : Prop := Closed s ∧ Cellless (events .text s)

instance (s : List Char) : Decidable (Static s) := inferInstanceAs (Decidable (_ ∧ _))

/-- A literal is given by its characters. -/
theorem static_literal {s : List Char} (h : Static s) : Static (String.ofList s).toList := by
  rwa [String.toList_ofList]

theorem Static.append {s s' : List Char} (h : Static s) (h' : Static s') : Static (s ++ s') := by
  refine ⟨h.1.append h'.1, fun content hcontent => ?_⟩
  rw [h.1.events_append, tags_append] at hcontent
  exact (List.mem_append.mp hcontent).elim (h.2 content) (h'.2 content)

theorem static_flatMap {lines : List String} (h : ∀ line ∈ lines, Static line.toList) :
    Static (lines.flatMap String.toList) := by
  induction lines with
  | nil => exact ⟨rfl, fun content hcontent => absurd hcontent List.not_mem_nil⟩
  | cons line lines ih =>
    rw [List.flatMap_cons]
    exact (h line List.mem_cons_self).append
      (ih fun other hother => h other (List.mem_cons_of_mem line hother))

end Cells

section Rows

def rowStart : List Char := ['t', 'r']

def rowEnd : List Char := ['/', 't', 'r']

def idCell : List Char := "td style=\"font-family:monospace;font-size:.85rem\"".toList

def timeCell : List Char := "td style=\"color:#888;font-size:.85rem\"".toList

def spanStart (online : Bool) : List Char :=
  if online then "span class=\"badge badge-on\"".toList
  else "span class=\"badge badge-off\"".toList

def spanEnd : List Char := ['/', 's', 'p', 'a', 'n']

/-- What stands before the id of a daemon, before the time and behind it. -/
theorem events_static :
    (Closed beforeId ∧ events .text beforeId = [.tag rowStart, .tag idCell]) ∧
      (Closed beforeTime ∧
        events .text beforeTime = [.tag cellEnd, .char '\n', .tag timeCell]) ∧
      (Closed afterTime ∧ events .text afterTime = [.tag cellEnd, .tag rowEnd]) ∧
      isCellStart idCell = true ∧ isCellStart timeCell = true := by
  have hid : beforeId = _ := String.toList_ofList
  have htime : beforeTime = _ := String.toList_ofList
  have hlast : afterTime = _ := String.toList_ofList
  have hidCell : idCell = _ := String.toList_ofList
  have htimeCell : timeCell = _ := String.toList_ofList
  rw [hid, htime, hlast, hidCell, htimeCell]
  decide +kernel

/-- The class and the name of a state. -/
theorem events_status (online : Bool) :
    Closed (statusHtml online) ∧
      events .text (statusHtml online) =
        [Event.tag cellEnd, Event.char '\n', Event.tag cellStart, Event.tag (spanStart online)] ++
          ((statusText online).map Event.char ++
            [Event.tag spanEnd, Event.tag cellEnd, Event.char '\n', Event.tag cellStart]) := by
  have hbefore : beforeClass = _ := String.toList_ofList
  have hquote : afterClass = _ := String.toList_ofList
  have hafter : afterStatus = _ := String.toList_ofList
  rw [statusHtml, hbefore, hquote, hafter]
  cases online with
  | true =>
    have hclass : badgeClass true = _ := String.toList_ofList
    have hstatus : statusText true = _ := String.toList_ofList
    have hspan : spanStart true = _ := String.toList_ofList
    rw [hclass, hstatus, hspan]
    decide +kernel
  | false =>
    have hclass : badgeClass false = _ := String.toList_ofList
    have hstatus : statusText false = _ := String.toList_ofList
    have hspan : spanStart false = _ := String.toList_ofList
    rw [hclass, hstatus, hspan]
    decide +kernel

/-- A time has no markup. -/
def AdminDaemonRow.Plain (d : AdminDaemonRow) : Prop :=
  '<' ∉ d.lastSeenIso ∧ '&' ∉ d.lastSeenIso

/-- What is read of a row. -/
def rowEvents (d : AdminDaemonRow) : List Event :=
  [Event.tag rowStart, Event.tag idCell] ++ ((escapeHtml d.id).map Event.char ++
    (([Event.tag cellEnd, Event.char '\n', Event.tag cellStart, Event.tag (spanStart d.online)] ++
        ((statusText d.online).map Event.char ++
          [Event.tag spanEnd, Event.tag cellEnd, Event.char '\n', Event.tag cellStart])) ++
      ((sessionsHtml d.sessions).map Event.char ++
        ([Event.tag cellEnd, Event.char '\n', Event.tag timeCell] ++
          (d.lastSeenIso.map Event.char ++ [Event.tag cellEnd, Event.tag rowEnd])))))

theorem events_rowHtml {d : AdminDaemonRow} (h : d.Plain) :
    Closed (rowHtml d) ∧ events .text (rowHtml d) = rowEvents d := by
  obtain ⟨⟨hfirst, hfirstEq⟩, ⟨htime, htimeEq⟩, ⟨hlast, hlastEq⟩, -⟩ := events_static
  obtain ⟨hstatus, hstatusEq⟩ := events_status d.online
  obtain ⟨hid, hidEq⟩ := closed_of_notMem (notMem_escapeHtml d.id)
  obtain ⟨hsessions, hsessionsEq⟩ := closed_of_notMem (sessionsHtml_spec d.sessions).1
  obtain ⟨hiso, hisoEq⟩ := closed_of_notMem h.1
  rw [rowHtml]
  refine ⟨hfirst.append (hid.append (hstatus.append (hsessions.append (htime.append
    (hiso.append hlast))))), ?_⟩
  rw [hfirst.events_append, hfirstEq, hid.events_append, hidEq, hstatus.events_append, hstatusEq,
    hsessions.events_append, hsessionsEq, htime.events_append, htimeEq, hiso.events_append, hisoEq,
    hlastEq, rowEvents]

/-- The markup of a row. -/
def rowTags (online : Bool) : List (List Char) :=
  [rowStart, idCell, cellEnd, cellStart, spanStart online, spanEnd, cellEnd, cellStart, cellEnd,
    timeCell, cellEnd, rowEnd]

/-- Neither an id nor a session changes the markup of a row. -/
theorem tags_rowHtml {d : AdminDaemonRow} (h : d.Plain) :
    tags (events .text (rowHtml d)) = rowTags d.online := by
  rw [(events_rowHtml h).2, rowEvents]
  simp only [tags_append, tags_chars, tags, List.nil_append]
  rfl

/-- The cells of a row, as they are shown. -/
def AdminDaemonRow.shown (d : AdminDaemonRow) : List (List Char) :=
  [d.id, statusText d.online, sessionsText d.sessions, d.lastSeenIso]

/-- The name of a state is shown as it is, and no cell ends in front of it. -/
theorem statusText_spec (online : Bool) :
    unescape (statusText online) = statusText online ∧ spanStart online ≠ cellEnd := by
  cases online with
  | true =>
    have hstatus : statusText true = _ := String.toList_ofList
    have hspan : spanStart true = _ := String.toList_ofList
    rw [hstatus, hspan]
    decide +kernel
  | false =>
    have hstatus : statusText false = _ := String.toList_ofList
    have hspan : spanStart false = _ := String.toList_ofList
    rw [hstatus, hspan]
    decide +kernel

/-- A cell with text only. -/
theorem readCells_cell {start : List Char} (h : isCellStart start = true) (text : List Char)
    (es : List Event) :
    readCells none (.tag start :: (text.map .char ++ .tag cellEnd :: es)) =
      unescape text :: readCells none es := by
  rw [readCells, if_pos h, readCells_some_chars, readCells, if_pos rfl, List.nil_append]

/-- A cell with text in a tag. -/
theorem readCells_nested {start inner close : List Char} (h : isCellStart start = true)
    (hinner : inner ≠ cellEnd) (hclose : close ≠ cellEnd) (text : List Char)
    (es : List Event) :
    readCells none (.tag start :: .tag inner ::
        (text.map .char ++ .tag close :: .tag cellEnd :: es)) =
      unescape text :: readCells none es := by
  rw [readCells, if_pos h, readCells, if_neg hinner, readCells_some_chars, readCells,
    if_neg hclose, readCells, if_pos rfl, List.nil_append]

/-- A tag between cells. -/
theorem readCells_skip_tag {content : List Char} (h : isCellStart content = false)
    (es : List Event) : readCells none (.tag content :: es) = readCells none es := by
  rw [readCells, h, if_neg Bool.false_ne_true]

theorem readCells_skip_char (c : Char) (es : List Event) :
    readCells none (.char c :: es) = readCells none es := by rw [readCells]

/-- The cells of a row are read back. -/
theorem readCells_rowHtml {d : AdminDaemonRow} (h : d.Plain) (es : List Event) :
    readCells none (events .text (rowHtml d) ++ es) = d.shown ++ readCells none es := by
  have hstart : isCellStart rowStart = false := by decide
  have hend : isCellStart rowEnd = false := by decide
  have hcell : isCellStart cellStart = true := by decide
  have hspanEnd : spanEnd ≠ cellEnd := by decide
  obtain ⟨-, -, -, hidCell, htimeCell⟩ := events_static
  obtain ⟨hstatus, hspan⟩ := statusText_spec d.online
  rw [(events_rowHtml h).2, rowEvents, AdminDaemonRow.shown]
  simp only [List.append_assoc, List.cons_append, List.nil_append]
  rw [readCells_skip_tag hstart, readCells_cell hidCell, readCells_skip_char,
    readCells_nested hcell hspan hspanEnd, readCells_skip_char,
    readCells_cell hcell, readCells_skip_char, readCells_cell htimeCell,
    readCells_skip_tag hend, unescape_escapeHtml, hstatus,
    (sessionsHtml_spec d.sessions).2, unescape_of_notMem h.2]

end Rows

section Whole

/-- Digits are not markup. -/
theorem natText_plain (n : ℕ) : '<' ∉ natText n := by
  intro hmem
  have hdigit := Nat.isDigit_of_mem_toDigits (by decide) (by decide) hmem
  exact absurd hdigit (by decide)

/-- Characters of a time. -/
def IsTimeChar (c : Char) : Prop :=
  c.isDigit = true ∨ c = '-' ∨ c = ':' ∨ c = '.' ∨ c = 'T' ∨ c = 'Z'

theorem isTimeChar_padZero (width : ℕ) (n : ℤ) :
    ∀ c ∈ (IsoTimestamps.padZero width n).toList, IsTimeChar c := by
  intro c hc
  rw [IsoTimestamps.padZero] at hc
  rw [String.toList_append, String.toList_append, String.toList_ofList, List.mem_append,
    List.mem_append, Nat.toString_eq_ofList_toDigits, String.toList_ofList] at hc
  rcases hc with (hsign | hzeros) | hdigits
  · split at hsign
    · have hdash : "-".toList = _ := String.toList_ofList
      rw [hdash] at hsign
      exact .inr (.inl (List.mem_singleton.mp hsign))
    · exact absurd hsign List.not_mem_nil
  · rw [List.eq_of_mem_replicate hzeros]
    exact .inl (by decide)
  · exact .inl (Nat.isDigit_of_mem_toDigits (by decide) (by decide) hdigits)

/-- A time is made of digits and of marks between them. -/
theorem isTimeChar_isoText (date : GregorianCalendar.Date) (time : IsoTimestamps.TimeOfDay) :
    ∀ c ∈ (IsoTimestamps.isoText date time).toList, IsTimeChar c := by
  have happend (s t : String) (hs : ∀ c ∈ s.toList, IsTimeChar c)
      (ht : ∀ c ∈ t.toList, IsTimeChar c) : ∀ c ∈ (s ++ t).toList, IsTimeChar c := by
    intro c hc
    rw [String.toList_append] at hc
    exact (List.mem_append.mp hc).elim (hs c) (ht c)
  have hmark (mark : String) (c : Char) (hc : mark.toList = [c]) (h : IsTimeChar c) :
      ∀ d ∈ mark.toList, IsTimeChar d := by
    intro d hd
    rw [hc, List.mem_singleton] at hd
    exact hd ▸ h
  have hpad := isTimeChar_padZero
  have hdash := hmark "-" '-' String.toList_ofList (.inr (.inl rfl))
  have hcolon := hmark ":" ':' String.toList_ofList (.inr (.inr (.inl rfl)))
  have hdot := hmark "." '.' String.toList_ofList (.inr (.inr (.inr (.inl rfl))))
  have hdate := hmark "T" 'T' String.toList_ofList (.inr (.inr (.inr (.inr (.inl rfl)))))
  have hzone := hmark "Z" 'Z' String.toList_ofList (.inr (.inr (.inr (.inr (.inr rfl)))))
  rw [IsoTimestamps.isoText]
  exact happend _ _ (happend _ _ (happend _ _ (happend _ _ (happend _ _ (happend _ _ (happend _ _
    (happend _ _ (happend _ _ (happend _ _ (happend _ _ (happend _ _ (happend _ _ (hpad 4 _) hdash)
      (hpad 2 _)) hdash) (hpad 2 _)) hdate) (hpad 2 _)) hcolon) (hpad 2 _)) hcolon) (hpad 2 _))
        hdot) (hpad 3 _)) hzone

theorem lastSeenIso_adminRow (id : String) (s : DaemonState) : (adminRow id s).lastSeenIso =
    ((iso8601Millis (UInt64.ofNat s.lastSeen)).getD "").toList := rfl

/-- The time of a row has no markup. -/
theorem plain_adminRow (id : String) (s : DaemonState) : (adminRow id s).Plain := by
  obtain ⟨date, time, htext, -⟩ :=
    DisplayedTimes.iso8601Millis_spec (UInt64.ofNat s.lastSeen)
  have hiso := lastSeenIso_adminRow id s
  rw [htext, Option.getD_some] at hiso
  have hall := isTimeChar_isoText date time
  rw [AdminDaemonRow.Plain, hiso]
  constructor
  · intro hmem
    exact absurd (hall '<' hmem) (by unfold IsTimeChar; decide)
  · intro hmem
    exact absurd (hall '&' hmem) (by unfold IsTimeChar; decide)

/-- The texts around the table. -/
theorem static_page :
    Static pageHead ∧ Static beforeUptime ∧ Static pageMiddle ∧ Static beforeTable ∧
      Static pageEnd := by
  refine ⟨static_flatMap ?_, static_literal (by decide +kernel), static_flatMap ?_,
    static_literal (by decide +kernel), static_literal (by decide +kernel)⟩
  · repeat' refine List.forall_mem_cons.mpr ⟨static_literal (by decide +kernel), ?_⟩
    exact List.forall_mem_nil _
  · repeat' refine List.forall_mem_cons.mpr ⟨static_literal (by decide +kernel), ?_⟩
    exact List.forall_mem_nil _

/-- The texts of the table. -/
theorem static_table : Static tableStart ∧ Static tableEnd ∧ Static emptyTable := by
  have hstart : tableStart = _ := String.toList_ofList
  have hend : tableEnd = _ := String.toList_ofList
  have hempty : emptyTable = _ := String.toList_ofList
  rw [hstart, hend, hempty]
  decide +kernel

/-- The markup of the table. -/
def tableTags (online : List Bool) : List (List Char) :=
  if online.isEmpty then tags (events .text emptyTable)
  else tags (events .text tableStart) ++ (online.flatMap rowTags ++ tags (events .text tableEnd))

theorem tableHtml_spec {rows : List AdminDaemonRow} (h : ∀ d ∈ rows, d.Plain) :
    Closed (tableHtml rows) ∧
      tags (events .text (tableHtml rows)) = tableTags (rows.map AdminDaemonRow.online) ∧
      ∀ es, readCells none (events .text (tableHtml rows) ++ es) =
        rows.flatMap AdminDaemonRow.shown ++ readCells none es := by
  obtain ⟨⟨hstart, hstartCells⟩, ⟨hend, hendCells⟩, hempty, hemptyCells⟩ := static_table
  cases rows with
  | nil =>
    have htable : tableHtml [] = emptyTable := rfl
    rw [htable]
    exact ⟨hempty, rfl, readCells_cellless hemptyCells⟩
  | cons d rows =>
    have htable : tableHtml (d :: rows) = tableStart ++ ((d :: rows).flatMap rowHtml ++ tableEnd) :=
      rfl
    generalize hall : d :: rows = all at htable h
    have hne : (all.map AdminDaemonRow.online).isEmpty = false := by rw [← hall]; rfl
    obtain ⟨hrows, hrowsEq⟩ := Closed.flatMap fun d hd => (events_rowHtml (h d hd)).1
    rw [htable, hstart.events_append, hrows.events_append, hrowsEq]
    refine ⟨hstart.append (hrows.append hend), ?_, fun es => ?_⟩
    · rw [tableTags, hne, if_neg Bool.false_ne_true, tags_append, tags_append, tags_flatMap,
        List.flatMap_map]
      refine congrArg (_ ++ ·) (congrArg (· ++ _) ?_)
      exact List.flatMap_congr fun d hd => tags_rowHtml (h d hd)
    · rw [List.append_assoc, readCells_cellless hstartCells, List.append_assoc]
      clear hrows hrowsEq hne hall htable
      induction all with
      | nil => exact readCells_cellless hendCells es
      | cons d all ih =>
        rw [List.flatMap_cons, List.flatMap_cons, List.append_assoc,
          readCells_rowHtml (h d List.mem_cons_self),
          ih fun d hd => h d (List.mem_cons_of_mem _ hd), List.append_assoc]

/-- A number on the page. -/
theorem readCells_natText (n : ℕ) (es : List Event) :
    readCells none (events .text (natText n) ++ es) = readCells none es := by
  rw [(closed_of_notMem (natText_plain n)).2, readCells_none_chars]

theorem tags_natText (n : ℕ) : tags (events .text (natText n)) = [] := by
  rw [(closed_of_notMem (natText_plain n)).2, tags_chars]

/-- The markup of the page. -/
def pageTags (online : List Bool) : List (List Char) :=
  tags (events .text pageHead) ++ (tags (events .text beforeUptime) ++
    (tags (events .text pageMiddle) ++ (tags (events .text beforeTable) ++
      (tableTags online ++ tags (events .text pageEnd)))))

/-- Numbers and texts leave the markup alone, and the cells are read back. -/
theorem renderAdminHtml_spec (clients uptime : ℕ) {rows : List AdminDaemonRow}
    (h : ∀ d ∈ rows, d.Plain) :
    tags (events .text (renderAdminHtml clients uptime rows)) =
        pageTags (rows.map AdminDaemonRow.online) ∧
      readCells none (events .text (renderAdminHtml clients uptime rows)) =
        rows.flatMap AdminDaemonRow.shown := by
  obtain ⟨⟨hhead, hheadCells⟩, ⟨huptime, huptimeCells⟩, ⟨hmiddle, hmiddleCells⟩,
    ⟨hcount, hcountCells⟩, -, hendCells⟩ := static_page
  obtain ⟨htable, htableTags, htableCells⟩ := tableHtml_spec h
  have hnat := fun n => (closed_of_notMem (natText_plain n)).1
  rw [renderAdminHtml, hhead.events_append, (hnat clients).events_append, huptime.events_append,
    (hnat uptime).events_append, hmiddle.events_append, (hnat rows.length).events_append,
    hcount.events_append, htable.events_append]
  constructor
  · rw [tags_append, tags_append, tags_append, tags_append, tags_append, tags_append, tags_append,
      tags_append, tags_natText, tags_natText, tags_natText, htableTags, List.nil_append,
      List.nil_append, List.nil_append, pageTags]
  · have hlast := readCells_cellless hendCells []
    rw [List.append_nil] at hlast
    rw [readCells_cellless hheadCells, readCells_natText, readCells_cellless huptimeCells,
      readCells_natText, readCells_cellless hmiddleCells, readCells_natText,
      readCells_cellless hcountCells, htableCells, hlast, readCells, List.append_nil]

/-- Who may see the page. -/
def Authorized {Digest : Type} (keyedDigest : List Char → Digest)
    (adminToken authorization : Option (List Char)) : Prop :=
  ∃ expected token, adminToken = some expected ∧ expected ≠ [] ∧
    authorization = some ("Bearer ".toList ++ token) ∧ keyedDigest token = keyedDigest expected

theorem bearerOk_iff {Digest : Type} [DecidableEq Digest] {keyedDigest : List Char → Digest}
    {authorization : Option (List Char)} {expected : List Char} :
    bearerOk keyedDigest authorization expected = true ↔
      ∃ token, authorization = some ("Bearer ".toList ++ token) ∧
        keyedDigest token = keyedDigest expected := by
  cases authorization with
  | none => exact iff_of_false Bool.false_ne_true fun ⟨_, h, _⟩ => by cases h
  | some value =>
    generalize hscheme : "Bearer ".toList = scheme
    rw [bearerOk, hscheme]
    constructor
    · intro h
      split at h
      · next hprefix =>
        obtain ⟨token, rfl⟩ := hprefix
        rw [List.drop_left, decide_eq_true_iff] at h
        exact ⟨token, rfl, h⟩
      · cases h
    · rintro ⟨token, hvalue, hdigest⟩
      rw [Option.some.inj hvalue, if_pos (List.prefix_append _ _), List.drop_left, hdigest]
      exact decide_eq_true rfl

theorem admin_page_iff {Digest : Type} [DecidableEq Digest] (keyedDigest : List Char → Digest)
    (adminToken authorization : Option (List Char)) (core : RelayCore) (uptime : ℕ)
    (html : List Char) :
    admin keyedDigest adminToken authorization core uptime = .page html ↔
      Authorized keyedDigest adminToken authorization ∧ html = adminHtml core uptime := by
  have hset : ∀ expected, adminToken.filter (!·.isEmpty) = some expected ↔
      adminToken = some expected ∧ expected ≠ [] := by
    intro expected
    rw [Option.filter_eq_some_iff, Bool.not_eq_true', List.isEmpty_eq_false_iff]
  rw [admin]
  cases hfilter : adminToken.filter (!·.isEmpty) with
  | none =>
    refine iff_of_false nofun ?_
    rintro ⟨⟨expected, token, htoken, hne, -⟩, -⟩
    rw [(hset expected).mpr ⟨htoken, hne⟩] at hfilter
    cases hfilter
  | some expected =>
    have hauthorized : Authorized keyedDigest adminToken authorization ↔
        bearerOk keyedDigest authorization expected = true := by
      obtain ⟨htoken, hne⟩ := (hset expected).mp hfilter
      rw [bearerOk_iff]
      constructor
      · rintro ⟨expected', token, htoken', -, hheader, hdigest⟩
        rw [htoken] at htoken'
        rw [Option.some.inj htoken']
        exact ⟨token, hheader, hdigest⟩
      · rintro ⟨token, hheader, hdigest⟩
        exact ⟨expected, token, htoken, hne, hheader, hdigest⟩
    rw [hauthorized]
    dsimp only
    cases bearerOk keyedDigest authorization expected with
    | false => exact iff_of_false nofun fun h => Bool.false_ne_true h.1
    | true =>
      constructor
      · intro h
        exact ⟨rfl, (AdminResponse.page.inj h).symm⟩
      · rintro ⟨-, rfl⟩
        rfl

/-- Only who has the token sees the page. Whatever ids the daemons and sessions have, its markup
is that of as many daemons with the same states, and its cells read back as what the relay
holds. -/
theorem admin_spec {Digest : Type} [DecidableEq Digest] (keyedDigest : List Char → Digest) :
    ∃ markup : List Bool → List (List Char), ∀ (core : RelayCore) (uptime : ℕ),
      (∀ adminToken authorization html,
        admin keyedDigest adminToken authorization core uptime = .page html ↔
          Authorized keyedDigest adminToken authorization ∧ html = adminHtml core uptime) ∧
      tags (events .text (adminHtml core uptime)) =
        markup (core.registry.daemonStates.entries.map fun e => e.2.online) ∧
      readCells none (events .text (adminHtml core uptime)) =
        core.registry.daemonStates.entries.flatMap fun e => (adminRow e.1 e.2).shown := by
  refine ⟨pageTags, fun core uptime => ⟨fun adminToken authorization html =>
    admin_page_iff keyedDigest adminToken authorization core uptime html, ?_⟩⟩
  have hplain : ∀ d ∈ core.registry.daemonStates.entries.map fun e => adminRow e.1 e.2,
      d.Plain := by
    intro d hd
    obtain ⟨e, -, rfl⟩ := List.mem_map.mp hd
    exact plain_adminRow e.1 e.2
  obtain ⟨htags, hcells⟩ := renderAdminHtml_spec
    (countWhere (fun _ h => h.auth.isSome) core.conns) uptime hplain
  rw [List.map_map] at htags
  rw [List.flatMap_map] at hcells
  exact ⟨htags, hcells⟩

end Whole

end Teleprompter.AdminPage
