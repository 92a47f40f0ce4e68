/-
  File:      MessageNexus/Lib/Json.lean
  Subject:   JSON VALUES and their compact text, as a JSON library holds and prints them: integers
             of 64 bits, other numbers by the shortest text of their double, objects as maps.

  * `Value`, `Value.get`, `Value.pointer` -- the values, and reading them by member and by path;
  * `Value.text` -- the compact text, with the escapes of strings;
  * `escapeChar_cancel`, `renderString_injective` -- a printed string determines its content;
  * `text_of_scalar` -- a printed string or number is the text of no other value;
  * `Value.OneLine` -- a value whose text has no newline: only a number could have one.
-/
import Std.Data.String.ToInt
import Mathlib.Data.List.Infix

namespace Json

/-! ## 1. Values -/

/-- The shortest text of a double: it begins like a number, and a point or an exponent tells it
    from an integer. -/
structure FloatText where
  chars : List Char
  starts : (chars.head?.any fun c => c.isDigit || c == '-') = true
  fraction : (chars.any fun c => c == '.' || c == 'e') = true

/-- A number: an integer (a parsed one fits an `i64` or a `u64`), or a double. -/
inductive Number where
  | int (n : Int)
  | float (text : FloatText)

/-- A value. The entries of an object are those of a map: their keys are distinct, and their order
    means nothing. -/
inductive Value where
  | null
  | bool (b : Bool)
  | number (n : Number)
  | string (s : String)
  | array (items : List Value)
  | object (entries : List (String × Value))

namespace Value

def isString : Value → Bool
  | .string _ => true
  | _ => false

def isNumber : Value → Bool
  | .number _ => true
  | _ => false

/-- `as_str`. -/
def asStr : Value → Option String
  | .string s => some s
  | _ => none

/-- `as_i64`: an integer that an `i64` holds. -/
def asI64 : Value → Option Int
  | .number (.int n) =>
      if -9223372036854775808 ≤ n ∧ n ≤ 9223372036854775807 then some n else none
  | _ => none

/-- `as_object`. -/
def asObject : Value → Option (List (String × Value))
  | .object entries => some entries
  | _ => none

/-- The member of an object. -/
def get (v : Value) (key : String) : Option Value :=
  v.asObject.bind fun entries => (entries.find? fun entry => entry.1 == key).map (·.2)

/-- `pointer` with a path of member names: none of them is an array index. -/
def pointer (v : Value) : List String → Option Value
  | [] => some v
  | key :: path => (v.get key).bind fun child => child.pointer path

end Value

/-! ## 2. The text of a value -/

def hexDigit (n : Nat) : Char :=
  if n < 10 then Char.ofNat (n + 48) else Char.ofNat (n + 87)

/-- A character of a string, escaped where JSON asks for it. -/
def escapeChar (c : Char) : List Char :=
  if c = '"' then ['\\', '"']
  else if c = '\\' then ['\\', '\\']
  else if c.toNat < 32 then
    if c.toNat = 8 then ['\\', 'b']
    else if c.toNat = 9 then ['\\', 't']
    else if c.toNat = 10 then ['\\', 'n']
    else if c.toNat = 12 then ['\\', 'f']
    else if c.toNat = 13 then ['\\', 'r']
    else ['\\', 'u', '0', '0', hexDigit (c.toNat / 16), hexDigit (c.toNat % 16)]
  else [c]

def renderString (s : String) : List Char := '"' :: s.toList.flatMap escapeChar ++ ['"']

def Number.render : Number → List Char
  | .int n => n.repr.toList
  | .float text => text.chars

mutual

/-- The compact text of a value. -/
def Value.render : Value → List Char
  | .null => ['n', 'u', 'l', 'l']
  | .bool true => ['t', 'r', 'u', 'e']
  | .bool false => ['f', 'a', 'l', 's', 'e']
  | .number n => n.render
  | .string s => renderString s
  | .array items => '[' :: renderItems items ++ [']']
  | .object entries => '{' :: renderEntries entries ++ ['}']

def renderItems : List Value → List Char
  | [] => []
  | [v] => v.render
  | v :: rest => v.render ++ ',' :: renderItems rest

def renderEntries : List (String × Value) → List Char
  | [] => []
  | [(key, v)] => renderString key ++ ':' :: v.render
  | (key, v) :: rest => renderString key ++ ':' :: v.render ++ ',' :: renderEntries rest

end

/-- `to_string`. -/
def Value.text (v : Value) : String := String.ofList v.render

/-! ## 3. A printed string determines its content -/

/-- The characters that are escaped. -/
def specials : List Char := '"' :: '\\' :: (List.range 32).map Char.ofNat

theorem mem_specials_of_lt {c : Char} (h : c.toNat < 32) : c ∈ specials := by
  refine List.mem_cons_of_mem _ (List.mem_cons_of_mem _ (List.mem_map.mpr ⟨c.toNat, ?_, ?_⟩))
  · exact List.mem_range.mpr h
  · exact Char.ofNat_toNat c

theorem escapeChar_plain {c : Char} (h : c ∉ specials) : escapeChar c = [c] := by
  have hquote : c ≠ '"' := fun he => h (he ▸ List.mem_cons_self)
  have hslash : c ≠ '\\' := fun he => h (he ▸ List.mem_cons_of_mem _ List.mem_cons_self)
  have hctrl : ¬ c.toNat < 32 := fun hlt => h (mem_specials_of_lt hlt)
  rw [escapeChar, if_neg hquote, if_neg hslash, if_neg hctrl]

/-- Every escape begins with a backslash. -/
theorem escapeChar_special : ∀ c ∈ specials, (escapeChar c).head? = some '\\' := by
  have hall : specials.all (fun c => (escapeChar c).head? = some '\\') = true := by decide
  simpa using hall

/-- No escape is the beginning of another. -/
theorem specials_prefixFree : ∀ c ∈ specials, ∀ d ∈ specials,
    escapeChar c <+: escapeChar d → c = d := by
  -- the list is run through: a decision for all characters would run through those
  have hall : specials.all (fun c => specials.all fun d =>
      escapeChar c <+: escapeChar d → c = d) = true := by decide
  intro c hc d hd
  have hrow := List.all_eq_true.mp hall c hc
  exact of_decide_eq_true (List.all_eq_true.mp hrow d hd)

theorem escape_ne_plain {c d : Char} {r s : List Char} (hc : c ∈ specials) (hd : d ∉ specials) :
    escapeChar c ++ r ≠ escapeChar d ++ s := by
  intro h
  rw [escapeChar_plain hd] at h
  have hhead := escapeChar_special c hc
  cases he : escapeChar c with
  | nil => rw [he] at hhead; cases hhead
  | cons x xs =>
      rw [he] at hhead h
      cases hhead
      have hx : '\\' = d := (List.cons.inj h).1
      exact hd (hx ▸ List.mem_cons_of_mem _ List.mem_cons_self)

/-- The escape of a character can be read off the front of a text. -/
theorem escapeChar_cancel {c d : Char} {r s : List Char}
    (h : escapeChar c ++ r = escapeChar d ++ s) : c = d ∧ r = s := by
  have hsame : c = d := by
    by_cases hc : c ∈ specials
    · by_cases hd : d ∈ specials
      · have hp : escapeChar c <+: escapeChar c ++ r := List.prefix_append _ _
        have hq : escapeChar d <+: escapeChar c ++ r := h ▸ List.prefix_append _ _
        rcases List.prefix_or_prefix_of_prefix hp hq with hcd | hdc
        · exact specials_prefixFree c hc d hd hcd
        · exact (specials_prefixFree d hd c hc hdc).symm
      · exact absurd h (escape_ne_plain hc hd)
    · by_cases hd : d ∈ specials
      · exact absurd h.symm (escape_ne_plain hd hc)
      · rw [escapeChar_plain hc, escapeChar_plain hd] at h
        exact (List.cons.inj h).1
  subst hsame
  exact ⟨rfl, List.append_cancel_left h⟩

theorem escapeChar_ne_nil (c : Char) : escapeChar c ≠ [] := by
  by_cases hc : c ∈ specials
  · intro he
    have hhead := escapeChar_special c hc
    rw [he] at hhead
    cases hhead
  · rw [escapeChar_plain hc]
    exact List.cons_ne_nil _ _

theorem escape_injective {cs ds : List Char}
    (h : cs.flatMap escapeChar = ds.flatMap escapeChar) : cs = ds := by
  induction cs generalizing ds with
  | nil =>
      cases ds with
      | nil => rfl
      | cons d ds =>
          have hnil := List.append_eq_nil_iff.mp h.symm
          exact absurd hnil.1 (escapeChar_ne_nil d)
  | cons c cs ih =>
      cases ds with
      | nil =>
          have hnil := List.append_eq_nil_iff.mp h
          exact absurd hnil.1 (escapeChar_ne_nil c)
      | cons d ds =>
          obtain ⟨hcd, hrest⟩ := escapeChar_cancel h
          rw [hcd, ih hrest]

theorem renderString_injective {s t : String} (h : renderString s = renderString t) : s = t := by
  have hbody := List.append_cancel_right (List.cons.inj h).2
  exact String.toList_inj.mp (escape_injective hbody)

/-! ## 4. A printed number determines its value -/

/-- The characters of an integer: digits, and a minus sign. -/
def isSignOrDigit (c : Char) : Bool := c.isDigit || c == '-'

theorem intRepr_chars (n : Int) : ∀ c ∈ n.repr.toList, isSignOrDigit c = true := by
  intro c hc
  have hnat : ∀ m : Nat, c ∈ m.repr.toList → isSignOrDigit c = true := by
    intro m hm
    rw [Nat.toList_repr] at hm
    have hdigit := Nat.isDigit_of_mem_toDigits (by decide) (by decide) hm
    simp [isSignOrDigit, hdigit]
  rw [Int.repr_eq_if] at hc
  split at hc
  · exact hnat _ hc
  · rw [String.toList_append] at hc
    rcases List.mem_append.mp hc with hc | hc
    · cases List.mem_singleton.mp hc
      rfl
    · exact hnat _ hc

theorem intRepr_ne_nil (n : Int) : n.repr.toList ≠ [] := by
  intro he
  have hempty : n.repr = "" := String.toList_eq_nil_iff.mp he
  rw [Int.repr_eq_if] at hempty
  split at hempty
  · exact Nat.repr_ne_empty hempty
  · have hlist := congrArg String.toList hempty
    rw [String.toList_append] at hlist
    cases hlist

/-- A number begins with a digit or a minus sign. -/
theorem number_head (n : Number) : ∃ c rest, n.render = c :: rest ∧ isSignOrDigit c = true := by
  cases n with
  | int n =>
      cases he : n.repr.toList with
      | nil => exact absurd he (intRepr_ne_nil n)
      | cons c rest =>
          exact ⟨c, rest, he, intRepr_chars n c (he ▸ List.mem_cons_self)⟩
  | float text =>
      have hstarts := text.starts
      cases he : text.chars with
      | nil => rw [he] at hstarts; cases hstarts
      | cons c rest =>
          rw [he] at hstarts
          exact ⟨c, rest, he, hstarts⟩

/-- A double does not print like an integer. -/
theorem int_ne_float (n : Int) (text : FloatText) : n.repr.toList ≠ text.chars := by
  intro he
  obtain ⟨c, hin, hc⟩ := List.any_eq_true.mp text.fraction
  have hsign := intRepr_chars n c (he ▸ hin)
  rcases Bool.or_eq_true_iff.mp hc with hdot | hexp
  · rw [beq_iff_eq.mp hdot] at hsign
    exact absurd hsign (by decide)
  · rw [beq_iff_eq.mp hexp] at hsign
    exact absurd hsign (by decide)

theorem number_injective {m n : Number} (h : m.render = n.render) : m = n := by
  cases m with
  | int m =>
      cases n with
      | int n =>
          have hrepr : m.repr = n.repr := String.toList_inj.mp h
          cases Int.repr_injective hrepr
          rfl
      | float text => exact absurd h (int_ne_float m text)
  | float s =>
      cases n with
      | int n => exact absurd h.symm (int_ne_float n s)
      | float t =>
          obtain ⟨chars, starts, fraction⟩ := s
          obtain ⟨chars', starts', fraction'⟩ := t
          cases (h : chars = chars')
          rfl

/-! ## 5. Strings and numbers among all values -/

/-- The first character tells whether a text is a string, a number, or neither. -/
theorem render_head (v : Value) : ∃ c rest, v.render = c :: rest ∧
    (c = '"' ↔ v.isString = true) ∧ (isSignOrDigit c = true ↔ v.isNumber = true) := by
  cases v with
  | null => exact ⟨_, _, rfl, by decide, by decide⟩
  | bool b => cases b <;> exact ⟨_, _, rfl, by decide, by decide⟩
  | number n =>
      obtain ⟨c, rest, he, hc⟩ := number_head n
      refine ⟨c, rest, he, iff_of_false ?_ Bool.false_ne_true, iff_of_true hc rfl⟩
      intro hquote
      rw [hquote] at hc
      exact absurd hc (by decide)
  | string s =>
      exact ⟨_, _, rfl, iff_of_true rfl rfl, iff_of_false (by decide) Bool.false_ne_true⟩
  | array items =>
      exact ⟨_, _, rfl, iff_of_false (by decide) Bool.false_ne_true,
        iff_of_false (by decide) Bool.false_ne_true⟩
  | object entries =>
      exact ⟨_, _, rfl, iff_of_false (by decide) Bool.false_ne_true,
        iff_of_false (by decide) Bool.false_ne_true⟩

/-- The text of a string or a number is the text of no other value. -/
theorem text_of_scalar {v w : Value} (hw : w.isString = true ∨ w.isNumber = true)
    (h : v.text = w.text) : v = w := by
  have hrender : v.render = w.render := String.ofList_inj.mp h
  obtain ⟨c, rest, hv, hstring, hnumber⟩ := render_head v
  obtain ⟨c', rest', hw', hstring', hnumber'⟩ := render_head w
  have hc : c = c' := by
    rw [hv, hw'] at hrender
    exact (List.cons.inj hrender).1
  rw [← hc] at hstring' hnumber'
  rcases hw with hw | hw
  · have hvs := hstring.mp (hstring'.mpr hw)
    cases v with
    | string s =>
        cases w with
        | string t => rw [renderString_injective hrender]
        | _ => cases hw
    | _ => cases hvs
  · have hvn := hnumber.mp (hnumber'.mpr hw)
    cases v with
    | number m =>
        cases w with
        | number n => rw [number_injective hrender]
        | _ => cases hw
    | _ => cases hvn

/-! ## 6. A text of one line -/

/-- The compact text has no newline. -/
def Value.OneLine (v : Value) : Prop := '\n' ∉ v.render

theorem newline_escape (c : Char) : '\n' ∉ escapeChar c := by
  by_cases hc : c ∈ specials
  · have hall : specials.all (fun d => decide ('\n' ∉ escapeChar d)) = true := by decide
    exact of_decide_eq_true (List.all_eq_true.mp hall c hc)
  · rw [escapeChar_plain hc, List.mem_singleton]
    intro he
    rw [← he] at hc
    exact hc (by decide)

/-- A string is printed on one line, whatever it holds. -/
theorem newline_renderString (s : String) : '\n' ∉ renderString s := by
  simp [renderString, newline_escape]

@[simp] theorem oneLine_string (s : String) : (Value.string s).OneLine := newline_renderString s

@[simp] theorem oneLine_bool (b : Bool) : (Value.bool b).OneLine := by
  cases b <;> simp [Value.OneLine, Value.render]

@[simp] theorem oneLine_null : Value.null.OneLine := by
  simp [Value.OneLine, Value.render]

@[simp] theorem oneLine_int (n : Int) : (Value.number (.int n)).OneLine := fun h =>
  absurd (intRepr_chars n _ h) (by decide)

@[simp] theorem oneLine_array (items : List Value) :
    (Value.array items).OneLine ↔ ∀ v ∈ items, v.OneLine := by
  have hitems : '\n' ∉ renderItems items ↔ ∀ v ∈ items, v.OneLine := by
    induction items with
    | nil => simp [renderItems]
    | cons v rest ih =>
        cases rest with
        | nil => simp [renderItems, Value.OneLine]
        | cons w rest => simpa [renderItems, Value.OneLine] using fun _ => ih
  simpa [Value.OneLine, Value.render] using hitems

@[simp] theorem oneLine_object (entries : List (String × Value)) :
    (Value.object entries).OneLine ↔ ∀ entry ∈ entries, entry.2.OneLine := by
  have hentries : '\n' ∉ renderEntries entries ↔ ∀ entry ∈ entries, entry.2.OneLine := by
    induction entries with
    | nil => simp [renderEntries]
    | cons entry rest ih =>
        obtain ⟨key, v⟩ := entry
        cases rest with
        | nil => simp [renderEntries, Value.OneLine, newline_renderString]
        | cons other rest =>
            simpa [renderEntries, Value.OneLine, newline_renderString] using fun _ => ih
  simpa [Value.OneLine, Value.render] using hentries

/-- A member of a value on one line is on one line. -/
theorem Value.OneLine.get {v w : Value} {key : String} (h : v.OneLine) (hw : v.get key = some w) :
    w.OneLine := by
  obtain ⟨entries, hentries, hfound⟩ := Option.bind_eq_some_iff.mp hw
  obtain ⟨entry, hfind, rfl⟩ := Option.map_eq_some_iff.mp hfound
  cases v with
  | object _ =>
      cases hentries
      exact (oneLine_object entries).mp h entry (List.mem_of_find?_eq_some hfind)
  | _ => cases hentries

theorem Value.OneLine.pointer {v w : Value} {path : List String} (h : v.OneLine)
    (hw : v.pointer path = some w) : w.OneLine := by
  induction path generalizing v with
  | nil =>
      cases hw
      exact h
  | cons key path ih =>
      obtain ⟨child, hchild, hrest⟩ := Option.bind_eq_some_iff.mp hw
      exact ih (h.get hchild) hrest

end Json
