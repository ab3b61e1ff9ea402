import CoverageTracker.Proofs.Binary64.Finite
import CoverageTracker.Proofs.Data.Decoding
import CoverageTracker.Proofs.Data.Json
import CoverageTracker.Wire
set_option autoImplicit false

/-!
# The wire format

What it is for a value to write a position, a range, an uncovered range, a reply or parameters, told
by the fields that a record has (`Record`) and by what each of these fields may be, and that each
decoder accepts exactly the values that write something, and reads what they write
(`Response.decode_eq_ok`, `Params.decode_eq_ok`).
-/

namespace CoverageTracker.Wire

open CoverageTracker.Data

/-! ## Fields -/

/-- A value is a record with these keys, and what it has as their fields: a table has them by key,
whatever else it has, and an array by place, and no more of them. -/
inductive Record (keys : List String) : Value → (String → Option Value) → Prop where
  | table (es : List (String × Value)) : Record keys (.table es) (lookup es)
  | array (vs : List Value) (hlength : vs.length ≤ keys.length) :
    Record keys (.array vs) fun key => vs[keys.idxOf key]?

/-- A field is there and holds something. -/
def Present {α : Type} (writes : Value → α → Prop) (found : Option Value) (a : α) : Prop :=
  ∃ v, found = some v ∧ writes v a

/-- A whole number of an unsigned 32-bit word. -/
def WritesWord (v : Value) (n : UInt32) : Prop := v = .integer n.toNat

/-- A number of either kind. -/
inductive WritesNumber : Value → Binary64 → Prop where
  | integer (n : Int) : WritesNumber (.integer n) (Binary64.ofInt n)
  | float (x : Binary64) : WritesNumber (.float x) x

/-- The text of a URI. -/
def WritesUri (v : Value) (uri : Uri) : Prop := v = .string uri.text

/-- A text, or none if the field is not there or `null`. -/
inductive WritesText : Option Value → Option String → Prop where
  | absent : WritesText none none
  | null : WritesText (some .null) none
  | text (s : String) : WritesText (some (.string s)) (some s)

/-- A list, or an empty one if the field is not there. -/
inductive WritesList {α : Type} (writes : Value → α → Prop) : Option Value → List α → Prop where
  | absent : WritesList writes none []
  | items {vs : List Value} {as : List α} (hitems : List.Forall₂ writes vs as) :
    WritesList writes (some (.array vs)) as

/-! ## Records -/

/-- A position on the wire. -/
def WritesPosition (v : Value) (p : Position) : Prop :=
  ∃ fields, Record ["line", "character"] v fields ∧
    Present WritesWord (fields "line") p.line ∧
    Present WritesWord (fields "character") p.character

/-- A range on the wire. -/
def WritesRange (v : Value) (r : Range) : Prop :=
  ∃ fields, Record ["start", "end"] v fields ∧
    Present WritesPosition (fields "start") r.start ∧
    Present WritesPosition (fields "end") r.stop

/-- An uncovered range on the wire. -/
def WritesUncovered (v : Value) (u : UncoveredRange) : Prop :=
  ∃ fields, Record ["range", "message"] v fields ∧
    Present WritesRange (fields "range") u.range ∧
    WritesText (fields "message") u.message

/-- A reply on the wire. -/
def WritesResponse (v : Value) (r : Response) : Prop :=
  ∃ fields, Record ["coveredPercent", "uncoveredRanges", "defaultMessage"] v fields ∧
    Present WritesNumber (fields "coveredPercent") r.percent ∧
    WritesList WritesUncovered (fields "uncoveredRanges") r.uncovered ∧
    WritesText (fields "defaultMessage") r.defaultMessage

/-- The identification of a document on the wire. -/
def WritesIdentifier (v : Value) (uri : Uri) : Prop :=
  ∃ fields, Record ["uri"] v fields ∧ Present WritesUri (fields "uri") uri

/-- Parameters on the wire. -/
def WritesParams (v : Value) (p : Params) : Prop :=
  ∃ fields, Record ["textDocument"] v fields ∧
    Present WritesIdentifier (fields "textDocument") p.uri

/-! ## Decoders -/

open Decoded

theorem asWord_eq_ok {v : Value} {n : UInt32} : v.asWord = .ok n ↔ WritesWord v n := by
  unfold WritesWord
  cases v with
  | integer i =>
    have hlt := n.toNat_lt
    simp only [Value.asWord, Value.integer.injEq]
    split
    case isTrue hi =>
      rw [Except.ok.injEq, ← UInt32.toNat_inj, UInt32.toNat_ofNat']
      omega
    case isFalse hi =>
      simp only [reduceCtorEq, false_iff]
      omega
  | _ => simp [Value.asWord, Value.refuse_ne_ok]

theorem asFloat_eq_ok {v : Value} {x : Binary64} : v.asFloat = .ok x ↔ WritesNumber v x := by
  constructor
  · intro h
    cases v with
    | integer n =>
      cases h
      exact .integer n
    | float =>
      cases h
      exact .float x
    | _ => cases h
  · rintro (n | x) <;> rfl

theorem asUri_eq_ok {v : Value} {uri : Uri} : v.asUri = .ok uri ↔ WritesUri v uri := by
  unfold WritesUri
  cases v with
  | string s =>
    rw [Value.asUri, bind_eq_ok, Value.string.injEq]
    constructor
    · rintro ⟨_, ⟨⟩, h⟩
      split at h
      case h_1 uri' hparse =>
        cases h
        exact (Uri.parse_eq_ok.1 hparse).symm
      case h_2 => cases h
    · rintro rfl
      exact ⟨_, rfl, by rw [Uri.parse_eq_ok.2 rfl]⟩
  | _ => exact iff_of_false (by rintro ⟨⟩) (by rintro ⟨⟩)

theorem optionalText_eq_ok {found : Option Value} {s : Option String} :
    (∃ o, Option.Rel (fun v s => v.asOptional Value.asString = .ok s) found o ∧ o.join = s) ↔
      WritesText found s := by
  constructor
  · rintro ⟨_, ⟨h⟩ | _, rfl⟩
    · rename_i v s
      cases v with
      | null =>
        cases h
        exact .null
      | string s =>
        cases h
        exact .text s
      | _ => cases h
    · exact .absent
  · rintro (_ | _ | s)
    · exact ⟨none, .none, rfl⟩
    · exact ⟨some none, .some rfl, rfl⟩
    · exact ⟨some (some s), .some rfl, rfl⟩

theorem defaultedList_eq_ok {α : Type} {read : Value → Decoded α} {writes : Value → α → Prop}
    (hread : ∀ v a, read v = .ok a ↔ writes v a) {found : Option Value} {as : List α} :
    (∃ o, Option.Rel (fun v as => Value.asList read v = .ok as) found o ∧ o.getD [] = as) ↔
      WritesList writes found as := by
  constructor
  · rintro ⟨_, ⟨h⟩ | _, rfl⟩
    · rename_i v as
      cases v with
      | array vs =>
        rw [Value.asList, mapM_eq_ok] at h
        exact .items (h.imp fun v a => (hread v a).1)
      | _ => cases h
    · exact .absent
  · rintro (_ | hitems)
    · exact ⟨none, .none, rfl⟩
    · exact ⟨some as, .some (mapM_eq_ok.2 (hitems.imp fun v a => (hread v a).2)), rfl⟩

theorem decodePosition_eq_ok {v : Value} {p : Position} :
    decodePosition v = .ok p ↔ WritesPosition v p := by
  cases v with
  | table es =>
    simp only [decodePosition, bind_eq_ok, pure_eq_ok, field_eq_ok, require_eq_ok, asWord_eq_ok]
    constructor
    · rintro ⟨_, hcharacter, _, hline, line, rfl, character, rfl, rfl⟩
      exact ⟨_, .table es, rel_some.1 hline, rel_some.1 hcharacter⟩
    · rintro ⟨_, ⟨⟩, hline, hcharacter⟩
      exact ⟨_, rel_some.2 hcharacter, _, rel_some.2 hline, _, rfl, _, rfl, rfl⟩
  | array vs =>
    simp only [decodePosition, bind_eq_ok, pure_eq_ok, requireItem_eq_ok, atMost_eq_ok, asWord_eq_ok]
    constructor
    · rintro ⟨line, hline, character, hcharacter, _, hlength, rfl⟩
      exact ⟨_, .array vs hlength, hline, hcharacter⟩
    · rintro ⟨_, ⟨⟩ | ⟨_, hlength⟩, hline, hcharacter⟩
      exact ⟨_, hline, _, hcharacter, (), hlength, rfl⟩
  | _ => exact iff_of_false (by rintro ⟨⟩) (by rintro ⟨_, ⟨⟩, _⟩)

theorem decodeRange_eq_ok {v : Value} {r : Range} : decodeRange v = .ok r ↔ WritesRange v r := by
  cases v with
  | table es =>
    simp only [decodeRange, bind_eq_ok, pure_eq_ok, field_eq_ok, require_eq_ok, decodePosition_eq_ok]
    constructor
    · rintro ⟨_, hstop, _, hstart, start, rfl, stop, rfl, rfl⟩
      exact ⟨_, .table es, rel_some.1 hstart, rel_some.1 hstop⟩
    · rintro ⟨_, ⟨⟩, hstart, hstop⟩
      exact ⟨_, rel_some.2 hstop, _, rel_some.2 hstart, _, rfl, _, rfl, rfl⟩
  | array vs =>
    simp only [decodeRange, bind_eq_ok, pure_eq_ok, requireItem_eq_ok, atMost_eq_ok,
      decodePosition_eq_ok]
    constructor
    · rintro ⟨start, hstart, stop, hstop, _, hlength, rfl⟩
      exact ⟨_, .array vs hlength, hstart, hstop⟩
    · rintro ⟨_, ⟨⟩ | ⟨_, hlength⟩, hstart, hstop⟩
      exact ⟨_, hstart, _, hstop, (), hlength, rfl⟩
  | _ => exact iff_of_false (by rintro ⟨⟩) (by rintro ⟨_, ⟨⟩, _⟩)

theorem decodeUncovered_eq_ok {v : Value} {u : UncoveredRange} :
    decodeUncovered v = .ok u ↔ WritesUncovered v u := by
  cases v with
  | table es =>
    simp only [decodeUncovered, bind_eq_ok, pure_eq_ok, field_eq_ok, require_eq_ok,
      decodeRange_eq_ok]
    constructor
    · rintro ⟨o, hmessage, _, hrange, range, rfl, rfl⟩
      exact ⟨_, .table es, rel_some.1 hrange, optionalText_eq_ok.1 ⟨o, hmessage, rfl⟩⟩
    · rintro ⟨_, ⟨⟩, hrange, hmessage⟩
      obtain ⟨o, hmessage, ho⟩ := optionalText_eq_ok.2 hmessage
      exact ⟨o, hmessage, _, rel_some.2 hrange, _, rfl, by rw [ho]⟩
  | array vs =>
    simp only [decodeUncovered, bind_eq_ok, pure_eq_ok, requireItem_eq_ok, item_eq_ok, atMost_eq_ok,
      decodeRange_eq_ok]
    constructor
    · rintro ⟨range, hrange, o, hmessage, _, hlength, rfl⟩
      exact ⟨_, .array vs hlength, hrange, optionalText_eq_ok.1 ⟨o, hmessage, rfl⟩⟩
    · rintro ⟨_, ⟨⟩ | ⟨_, hlength⟩, hrange, hmessage⟩
      obtain ⟨o, hmessage, ho⟩ := optionalText_eq_ok.2 hmessage
      exact ⟨_, hrange, o, hmessage, (), hlength, by rw [ho]⟩
  | _ => exact iff_of_false (by rintro ⟨⟩) (by rintro ⟨_, ⟨⟩, _⟩)

theorem Response.decode_eq_ok {v : Value} {r : Response} :
    Response.decode v = .ok r ↔ WritesResponse v r := by
  have hlist := @defaultedList_eq_ok _ _ _ @decodeUncovered_eq_ok
  cases v with
  | table es =>
    simp only [Response.decode, bind_eq_ok, pure_eq_ok, field_eq_ok, require_eq_ok, asFloat_eq_ok]
    constructor
    · rintro ⟨_, hpercent, o, hmessage, us, huncovered, percent, rfl, rfl⟩
      exact ⟨_, .table es, rel_some.1 hpercent, hlist.1 ⟨us, huncovered, rfl⟩,
        optionalText_eq_ok.1 ⟨o, hmessage, rfl⟩⟩
    · rintro ⟨_, ⟨⟩, hpercent, huncovered, hmessage⟩
      obtain ⟨us, huncovered, hus⟩ := hlist.2 huncovered
      obtain ⟨o, hmessage, ho⟩ := optionalText_eq_ok.2 hmessage
      exact ⟨_, rel_some.2 hpercent, o, hmessage, us, huncovered, _, rfl, by rw [hus, ho]⟩
  | array vs =>
    simp only [Response.decode, bind_eq_ok, pure_eq_ok, requireItem_eq_ok, item_eq_ok, atMost_eq_ok,
      asFloat_eq_ok]
    constructor
    · rintro ⟨percent, hpercent, us, huncovered, o, hmessage, _, hlength, rfl⟩
      exact ⟨_, .array vs hlength, hpercent, hlist.1 ⟨us, huncovered, rfl⟩,
        optionalText_eq_ok.1 ⟨o, hmessage, rfl⟩⟩
    · rintro ⟨_, ⟨⟩ | ⟨_, hlength⟩, hpercent, huncovered, hmessage⟩
      obtain ⟨us, huncovered, hus⟩ := hlist.2 huncovered
      obtain ⟨o, hmessage, ho⟩ := optionalText_eq_ok.2 hmessage
      exact ⟨_, hpercent, us, huncovered, o, hmessage, (), hlength, by rw [hus, ho]⟩
  | _ => exact iff_of_false (by rintro ⟨⟩) (by rintro ⟨_, ⟨⟩, _⟩)

theorem Params.decodeIdentifier_eq_ok {v : Value} {uri : Uri} :
    Params.decodeIdentifier v = .ok uri ↔ WritesIdentifier v uri := by
  cases v with
  | table es =>
    simp only [Params.decodeIdentifier, bind_eq_ok, field_eq_ok, require_eq_ok, asUri_eq_ok]
    constructor
    · rintro ⟨_, huri, rfl⟩
      exact ⟨_, .table es, rel_some.1 huri⟩
    · rintro ⟨_, ⟨⟩, huri⟩
      exact ⟨_, rel_some.2 huri, rfl⟩
  | array vs =>
    simp only [Params.decodeIdentifier, bind_eq_ok, pure_eq_ok, requireItem_eq_ok, atMost_eq_ok,
      asUri_eq_ok]
    constructor
    · rintro ⟨_, huri, _, hlength, rfl⟩
      exact ⟨_, .array vs hlength, huri⟩
    · rintro ⟨_, ⟨⟩ | ⟨_, hlength⟩, huri⟩
      exact ⟨_, huri, (), hlength, rfl⟩
  | _ => exact iff_of_false (by rintro ⟨⟩) (by rintro ⟨_, ⟨⟩, _⟩)

theorem Params.decode_eq_ok {v : Value} {p : Params} :
    Params.decode v = .ok p ↔ WritesParams v p := by
  cases v with
  | table es =>
    simp only [Params.decode, bind_eq_ok, pure_eq_ok, field_eq_ok, require_eq_ok,
      decodeIdentifier_eq_ok]
    constructor
    · rintro ⟨_, huri, uri, rfl, rfl⟩
      exact ⟨_, .table es, rel_some.1 huri⟩
    · rintro ⟨_, ⟨⟩, huri⟩
      exact ⟨_, rel_some.2 huri, _, rfl, rfl⟩
  | array vs =>
    simp only [Params.decode, bind_eq_ok, pure_eq_ok, requireItem_eq_ok, atMost_eq_ok,
      decodeIdentifier_eq_ok]
    constructor
    · rintro ⟨_, huri, _, hlength, rfl⟩
      exact ⟨_, .array vs hlength, huri⟩
    · rintro ⟨_, ⟨⟩ | ⟨_, hlength⟩, huri⟩
      exact ⟨_, huri, (), hlength, rfl⟩
  | _ => exact iff_of_false (by rintro ⟨⟩) (by rintro ⟨_, ⟨⟩, _⟩)

theorem Response.decodeOptional_of_ne_null {v : Value} (hnull : v ≠ .null) :
    Response.decodeOptional v = (Response.decode v).map some := by
  unfold Response.decodeOptional Value.asOptional
  split
  · exact absurd rfl hnull
  · rfl

/-! ## JSON values -/

section Json

variable {v : Value} {r : Response}

/-- What a JSON value has as fields are JSON values. -/
theorem Record.isJson {keys : List String} {fields : String → Option Value}
    (h : Record keys v fields) (hv : v.isJson = true) {key : String} {u : Value}
    (hfield : fields key = some u) : u.isJson = true := by
  cases h with
  | table es =>
    rw [Value.isJson, Bool.and_eq_true, decide_eq_true_eq] at hv
    exact Value.entriesAreJson_iff.1 hv.2 _ ((lookup_eq_some hv.1).1 hfield)
  | array vs =>
    rw [Value.isJson] at hv
    exact Value.areJson_iff.1 hv _ (List.mem_of_getElem? hfield)

theorem WritesNumber.isFinite {x : Binary64} (h : WritesNumber v x) (hv : v.isJson = true) :
    x.isFinite = true := by
  cases h with
  | integer n => exact Binary64.ofInt_isFinite hv
  | float x => exact hv

theorem WritesResponse.isFinite (h : WritesResponse v r) (hv : v.isJson = true) :
    r.percent.isFinite = true := by
  obtain ⟨_, hrecord, ⟨_, hfield, hnumber⟩, -⟩ := h
  exact hnumber.isFinite (hrecord.isJson hv hfield)

/-- A JSON number is never NaN, so that a reply always has a result. -/
theorem WritesResponse.result? (h : WritesResponse v r) (hv : v.isJson = true) :
    ∃ c, r.result? = some c ∧ c.percent = r.percent.clampPercent ∧
      c.uncovered = r.uncovered.map fun u => ⟨u.range, u.message <|> r.defaultMessage⟩ := by
  have hnumber := Binary64.isNaN_of_isFinite (h.isFinite hv)
  refine ⟨⟨r.percent.clampPercent, _, Binary64.isPercent_clampPercent hnumber⟩, ?_, rfl, rfl⟩
  rw [Response.result?, Coverage.ofPercent?, dif_pos hnumber]

end Json

end CoverageTracker.Wire
