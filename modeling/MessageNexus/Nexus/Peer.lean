/-
  File:      MessageNexus/Nexus/Peer.lean
  Subject:   WHO THE PEER IS (`peer.rs`): its process id, and the start time that the kernel prints
             in `/proc/<pid>/stat` behind a name of the peer's own choosing.

  * `readToString`, `parseI64`, `forPid`, `peerProcess` -- the code;
  * `Stat`, `Stat.line` -- the line as the kernel prints it: the name as it is, of any bytes, and
    after it the state letter and the numbers from field 4 on;
  * `rsplitOnce_stat`, `words_fields` -- no name moves the split or the fields behind it.
-/
import MessageNexus.Lib.Text
import MessageNexus.Nexus.Listener

namespace MessageNexus

open Interact SignalFlow Text

/-! ## 1. The code -/

/-- The files, as a read of their bytes finds them. -/
abbrev Files := String → Except IoError (List UInt8)

/-- `fs::read_to_string`. -/
def readToString (files : Files) (path : String) : Except IoError String := do
  let bytes ← files path
  match decode bytes with
  | none => .error "stream did not contain valid UTF-8"
  | some text => .ok text

/-- `char::is_whitespace`. -/
def isWhitespace (c : Char) : Bool :=
  let n := c.toNat
  (9 ≤ n && n ≤ 13) || n == 32 || n == 0x85 || n == 0xA0 || n == 0x1680 ||
    (0x2000 ≤ n && n ≤ 0x200A) || n == 0x2028 || n == 0x2029 || n == 0x202F || n == 0x205F ||
    n == 0x3000

/-- The range of an `i64`. -/
def fitsI64 (n : Int) : Bool := -i64Max - 1 ≤ n && n ≤ i64Max

/-- `str::parse::<i64>`. -/
def parseI64 (text : List Char) : Option Int := (parseInt text).filter fitsI64

/-- The file of a process. -/
def statPath (processId : Int) : String := "/proc/" ++ toString processId ++ "/stat"

/-- `ReadsProcess::for_pid`. -/
def forPid (files : Files) (processId : Int) : Except IoError Process := do
  let stat ← readToString files (statPath processId)
  match rsplitOnce [')', ' '] stat.toList with
  | none => .error "malformed process stat"
  | some (_, fields) =>
    match (words isWhitespace fields)[19]?.bind parseI64 with
    | none => .error "missing process start"
    | some started => .ok ⟨processId, started⟩

/-- `IdentifiesPeer::peer_process`, from the credentials of the socket. -/
def peerProcess (files : Files) (credentials : Except IoError Int) : Option Process :=
  match credentials with
  | .error _ => none
  | .ok processId => (forPid files processId).toOption

/-! ## 2. The line of the kernel -/

/-- What the line of a process tells: its name, the state letter (field 3) and the numbers from
    field 4 on, field 22 among them. -/
structure Stat where
  name : List UInt8
  state : Char
  numbers : List Int
  letter : state.isAlpha = true
  enough : 19 ≤ numbers.length

/-- Field 22, the start time. -/
def Stat.started (stat : Stat) : Int := stat.numbers.get ⟨18, stat.enough⟩

/-- The fields after the name, and the end of the line. -/
def Stat.fields (stat : Stat) : List Char :=
  line ' ' '\n' [stat.state] (stat.numbers.map decimal)

/-- The line of process `processId`. -/
def Stat.line (stat : Stat) (processId : Int) : List UInt8 :=
  encode (decimal processId ++ [' ', '(']) ++ stat.name ++ encode ([')', ' '] ++ stat.fields)

/-! ## 3. The fields behind the name -/

theorem isDigit_toNat {c : Char} (h : c.isDigit = true) : 48 ≤ c.toNat ∧ c.toNat ≤ 57 := by
  simpa [Char.isDigit, UInt32.le_iff_toNat_le] using h

theorem isAlpha_toNat {c : Char} (h : c.isAlpha = true) : 65 ≤ c.toNat ∧ c.toNat ≤ 122 := by
  have hcases : (65 ≤ c.toNat ∧ c.toNat ≤ 90) ∨ (97 ≤ c.toNat ∧ c.toNat ≤ 122) := by
    have hranges : (decide ('A'.val ≤ c.val ∧ c.val ≤ 'Z'.val) ||
        (decide ('a'.val ≤ c.val) && decide (c.val ≤ 'z'.val))) = true := h
    simpa [UInt32.le_iff_toNat_le] using hranges
  omega

/-- A printable character is no blank. -/
theorem isWhitespace_printable {c : Char} (hlow : 33 ≤ c.toNat) (hhigh : c.toNat ≤ 126) :
    isWhitespace c = false := by
  simp only [isWhitespace, Bool.or_eq_false_iff, Bool.and_eq_false_iff, decide_eq_false_iff_not,
    beq_eq_false_iff_ne]
  omega

/-- The characters of the numbers, as the kernel prints them. -/
theorem decimal_toNat {n : Int} {c : Char} (h : c ∈ decimal n) : 45 ≤ c.toNat ∧ c.toNat ≤ 57 := by
  rcases decimal_mem h with rfl | hdigit
  · exact ⟨by decide, by decide⟩
  · have hrange := isDigit_toNat hdigit
    omega

/-- The words behind the name are the state letter and the numbers. -/
theorem words_fields (stat : Stat) :
    words isWhitespace stat.fields = [stat.state] :: stat.numbers.map decimal := by
  refine words_line (by decide) (by decide) fun word hword => ?_
  rcases List.mem_cons.mp hword with rfl | hnumber
  · refine ⟨List.cons_ne_nil _ _, fun c hc => ?_⟩
    rw [List.mem_singleton.mp hc]
    have hrange := isAlpha_toNat stat.letter
    exact isWhitespace_printable (by omega) (by omega)
  · obtain ⟨n, _, rfl⟩ := List.mem_map.mp hnumber
    refine ⟨decimal_ne_nil n, fun c hc => ?_⟩
    have hrange := decimal_toNat hc
    exact isWhitespace_printable (by omega) (by omega)

/-- There is no parenthesis behind the name. -/
theorem fields_no_parenthesis (stat : Stat) : ')' ∉ stat.fields := by
  intro h
  have hstate := isAlpha_toNat stat.letter
  simp only [Stat.fields, line, List.mem_append, List.mem_flatMap, List.mem_map, List.mem_cons,
    List.not_mem_nil, or_false] at h
  rcases h with (h | ⟨_, ⟨n, _, rfl⟩, h | h⟩) | h
  · rw [← h] at hstate
    exact absurd hstate (by decide)
  · exact absurd h (by decide)
  · exact absurd (decimal_toNat h) (by decide)
  · exact absurd h (by decide)

/-- Whatever stands before it, the closing parenthesis of the name is the last one. -/
theorem rsplitOnce_stat (stat : Stat) (before : List Char) :
    rsplitOnce [')', ' '] (before ++ [')', ' '] ++ stat.fields) = some (before, stat.fields) := by
  refine rsplitOnce_last ?_ before
  intro h
  rcases List.mem_cons.mp h with h | h
  · exact absurd h (by decide)
  · exact fields_no_parenthesis stat h

/-- The word that is read is field 22. -/
theorem words_started (stat : Stat) :
    (words isWhitespace stat.fields)[19]? = some (decimal stat.started) := by
  rw [words_fields, List.getElem?_cons_succ, List.getElem?_map,
    List.getElem?_eq_getElem stat.enough]
  rfl

theorem parseI64_decimal (n : Int) :
    parseI64 (decimal n) = if fitsI64 n then some n else none := by
  rw [parseI64, parseInt_decimal, Option.filter_some]

/-! ## 4. The identity of the peer -/

/-- The line is UTF-8 exactly if the name is. -/
theorem utf8_line_iff (stat : Stat) (processId : Int) :
    Utf8 (stat.line processId) ↔ Utf8 stat.name :=
  utf8_between_iff _ _ _

/-- What `for_pid` makes of a line whose name is UTF-8. -/
theorem forPid_text {files : Files} {processId : Int} {stat : Stat}
    (hread : files (statPath processId) = .ok (stat.line processId)) (hname : Utf8 stat.name) :
    forPid files processId =
      if fitsI64 stat.started then .ok ⟨processId, stat.started⟩
      else .error "missing process start" := by
  obtain ⟨name, hchars⟩ := hname
  have hline : stat.line processId =
      encode ((decimal processId ++ [' ', '('] ++ name) ++ [')', ' '] ++ stat.fields) := by
    simp only [Stat.line, hchars, encode_append, List.append_assoc]
  have hstat : readToString files (statPath processId) = .ok (String.ofList
      ((decimal processId ++ [' ', '('] ++ name) ++ [')', ' '] ++ stat.fields)) := by
    rw [readToString, hread, hline]
    simp only [bind, Except.bind, decode_encode]
  rw [forPid, hstat]
  simp only [bind, Except.bind, String.toList_ofList, rsplitOnce_stat, words_started,
    Option.bind_some, parseI64_decimal]
  by_cases hfits : fitsI64 stat.started = true
  · simp only [hfits, if_true]
  · simp only [hfits]
    rfl

/-- What it makes of a line whose name is not UTF-8. -/
theorem forPid_bytes {files : Files} {processId : Int} {stat : Stat}
    (hread : files (statPath processId) = .ok (stat.line processId)) (hname : ¬ Utf8 stat.name) :
    forPid files processId = .error "stream did not contain valid UTF-8" := by
  have hline : ¬ Utf8 (stat.line processId) := fun h => hname ((utf8_line_iff stat _).mp h)
  have hstat : readToString files (statPath processId) =
      .error "stream did not contain valid UTF-8" := by
    rw [readToString, hread]
    simp only [bind, Except.bind, decode_none hline]
  rw [forPid, hstat]
  rfl

/-- Whom Message cannot identify it does not serve. -/
theorem answer_bytes [FlowDebug] {files : Files} {processId : Int} {stat : Stat}
    (hread : files (statPath processId) = .ok (stat.line processId)) (hname : ¬ Utf8 stat.name)
    (query : SignalMessage.Query) :
    Trace forwardRound answerOrdinary
      [⟨.readQuery, .ok query⟩, ⟨.peerProcess, peerProcess files (.ok processId)⟩]
      (.ret (.inr (.error (.io "cannot read the peer process identity")))) := by
  have hnone : peerProcess files (.ok processId) = none := by
    rw [peerProcess, forPid_bytes hread hname]
    rfl
  rw [hnone]
  exact .ask _ (.ask _ (.here _))

/-- Message knows the peer as its process id and field 22 exactly if the name is UTF-8, and field 22
    an `i64`; whoever it knows as the peer is that process. -/
theorem for_pid_iff (files : Files) (processId : Int) (stat : Stat)
    (hread : files (statPath processId) = .ok (stat.line processId)) :
    (forPid files processId = .ok ⟨processId, stat.started⟩ ↔
      Utf8 stat.name ∧ fitsI64 stat.started = true) ∧
    (∀ process, peerProcess files (.ok processId) = some process →
      process = ⟨processId, stat.started⟩) := by
  by_cases hname : Utf8 stat.name
  · have htext := forPid_text hread hname
    by_cases hfits : fitsI64 stat.started = true
    · rw [if_pos hfits] at htext
      refine ⟨by simp [htext, hname, hfits], fun process hprocess => ?_⟩
      rw [peerProcess, htext] at hprocess
      exact (Option.some.inj hprocess).symm
    · rw [if_neg hfits] at htext
      refine ⟨by simp [htext, hfits], fun process hprocess => ?_⟩
      rw [peerProcess, htext] at hprocess
      cases hprocess
  · have hbytes := forPid_bytes hread hname
    refine ⟨by simp [hbytes, hname], fun process hprocess => ?_⟩
    rw [peerProcess, hbytes] at hprocess
    cases hprocess

/-- A process named `x) R 1 2 (y`. -/
def forgedStat : Stat :=
  ⟨encode "x) R 1 2 (y".toList, 'S', List.replicate 18 0 ++ [555, 8192], rfl, by decide⟩

theorem for_pid_forged : forPid (fun _ => .ok (forgedStat.line 7)) 7 = .ok ⟨7, 555⟩ :=
  (for_pid_iff _ 7 forgedStat rfl).1.mpr ⟨utf8_encode _, rfl⟩

/-- A process whose name is the byte 255, which no UTF-8 text has. -/
def unreadableStat : Stat := ⟨[255], 'S', List.replicate 18 0 ++ [555, 8192], rfl, by decide⟩

theorem for_pid_unreadable :
    forPid (fun _ => .ok (unreadableStat.line 7)) 7 =
        .error "stream did not contain valid UTF-8" ∧
      forPid (fun _ => .ok (unreadableStat.line 7)) 7 ≠ .ok ⟨7, unreadableStat.started⟩ ∧
      peerProcess (fun _ => .ok (unreadableStat.line 7)) (.ok 7) = none := by
  have hname : ¬ Utf8 unreadableStat.name := fun h => absurd (utf8_first h) (by decide)
  have hbytes : forPid (fun _ => .ok (unreadableStat.line 7)) 7 =
      .error "stream did not contain valid UTF-8" := forPid_bytes rfl hname
  refine ⟨hbytes, ?_, ?_⟩
  · rw [hbytes]
    exact nofun
  · rw [peerProcess, hbytes]
    rfl

end MessageNexus
