import CoverageTracker.Backend
import Mathlib.Data.List.Induction
set_option autoImplicit false

/-!
# Calls and replies meet first in, first out

A history is a backend together with a record of all that was done with it: the calls that were
made, the replies that came, who was handed which of them, and the callers that gave up.  Whatever
is done, the replies that were handed out and those that are ready are all that came, in the order
in which they came; the calls that left the line are in the order in which they were made, and each
of them has a reply or was given up (`History.IsMatched`).
-/

namespace CoverageTracker.Backend

variable {α ρ : Type} {uri other : String}

/-! ## What concerns one URI -/

/-- What a record that is kept for all URIs holds for one of them. -/
def forUri (uri : String) (entries : List (String × α)) : List α :=
  entries.filterMap fun e => if e.1 = uri then some e.2 else none

@[simp] theorem forUri_nil : forUri uri ([] : List (String × α)) = [] := rfl

@[simp] theorem forUri_append (entries more : List (String × α)) :
    forUri uri (entries ++ more) = forUri uri entries ++ forUri uri more :=
  List.filterMap_append

@[simp] theorem forUri_cons_self (a : α) (entries : List (String × α)) :
    forUri uri ((uri, a) :: entries) = a :: forUri uri entries := by
  simp [forUri]

theorem forUri_cons_of_ne (h : other ≠ uri) (a : α) (entries : List (String × α)) :
    forUri uri ((other, a) :: entries) = forUri uri entries := by
  simp [forUri, h]

/-- What a record holds for one URI is in the order of the whole record. -/
theorem forUri_sublist (entries : List (String × α)) :
    (forUri uri entries).Sublist (entries.map Prod.snd) := by
  induction entries with
  | nil => exact .slnil
  | cons e entries ih =>
    obtain ⟨u, a⟩ := e
    by_cases h : u = uri
    · subst h
      rw [forUri_cons_self]
      exact ih.cons_cons a
    · rw [forUri_cons_of_ne h]
      exact ih.cons a

/-- The replies that are ready for a URI. -/
def kept (b : Backend ρ) (uri : String) : List ρ := forUri uri b.ready

/-- The calls of a URI that stand in line, awaited or not. -/
def line (b : Backend ρ) (uri : String) : List Call := b.waiting.filter fun c => c.uri = uri

/-! ## Taking from a line -/

theorem takeReady_eq (uri : String) (replies : List (String × ρ)) :
    (takeReady uri replies).1 = (forUri uri replies).head? ∧
      forUri uri (takeReady uri replies).2 = (forUri uri replies).tail := by
  induction replies with
  | nil => exact ⟨rfl, rfl⟩
  | cons e replies ih =>
    obtain ⟨u, r⟩ := e
    by_cases h : u = uri
    · subst h
      simp [takeReady]
    · simpa [takeReady, h, forUri_cons_of_ne h] using ih

theorem forUri_takeReady_of_ne (h : uri ≠ other) (replies : List (String × ρ)) :
    forUri other (takeReady uri replies).2 = forUri other replies := by
  induction replies with
  | nil => rfl
  | cons e replies ih =>
    obtain ⟨u, r⟩ := e
    by_cases hu : u = uri
    · subst hu
      simp [takeReady, forUri_cons_of_ne h]
    · by_cases ho : u = other
      · subst ho
        simp [takeReady, hu, ih]
      · simp [takeReady, hu, forUri_cons_of_ne ho, ih]

/-- How a call is found in a line: the calls before it are not awaited and leave the line with it,
and if no call is awaited then all of them leave. -/
def Passes (calls : List Call) (found : Option Ticket) (left : List Call) : Prop :=
  ∃ dead, (∀ c ∈ dead, c.awaited = false) ∧
    ((∃ c, calls = dead ++ c :: left ∧ c.awaited = true ∧ found = some c.caller) ∨
      (calls = dead ∧ left = [] ∧ found = none))

theorem passes_takeAwaited (uri : String) (calls : List Call) :
    Passes (calls.filter fun c => c.uri = uri) (takeAwaited uri calls).1
      ((takeAwaited uri calls).2.filter fun c => c.uri = uri) := by
  induction calls with
  | nil => exact ⟨[], by simp, .inr ⟨rfl, rfl, rfl⟩⟩
  | cons c calls ih =>
    by_cases huri : c.uri = uri
    · by_cases hawaited : c.awaited = true
      · exact ⟨[], by simp, .inl ⟨c, by simp [takeAwaited, huri, hawaited], hawaited,
          by simp [takeAwaited, huri, hawaited]⟩⟩
      · obtain ⟨dead, hdead, hfound⟩ := ih
        refine ⟨c :: dead, by simpa [hawaited] using hdead, ?_⟩
        rcases hfound with ⟨next, hcalls, hnext, hfound⟩ | ⟨hcalls, hleft, hfound⟩
        · refine .inl ⟨next, ?_, hnext, ?_⟩
          · simp only [List.filter_cons, huri, decide_true, if_true, takeAwaited, hawaited,
              if_false, List.cons_append, Bool.false_eq_true]
            rw [← hcalls]
          · simpa [takeAwaited, huri, hawaited] using hfound
        · refine .inr ⟨?_, ?_, ?_⟩
          · simpa [huri] using hcalls
          · simpa [takeAwaited, huri, hawaited] using hleft
          · simpa [takeAwaited, huri, hawaited] using hfound
    · simpa [takeAwaited, huri] using ih

theorem filter_takeAwaited_of_ne (h : uri ≠ other) (calls : List Call) :
    ((takeAwaited uri calls).2.filter fun c => c.uri = other) =
      calls.filter fun c => c.uri = other := by
  induction calls with
  | nil => rfl
  | cons c calls ih =>
    by_cases huri : c.uri = uri
    · have hother : c.uri ≠ other := huri ▸ h
      by_cases hawaited : c.awaited = true
      · simp [takeAwaited, huri, hawaited, h]
      · simp [takeAwaited, huri, hawaited, h, ih]
    · simp [takeAwaited, huri, List.filter_cons, ih]

/-! ## Operations -/

theorem call_of_kept_cons {b : Backend ρ} {t : Ticket} {reply : ρ} {rest : List ρ}
    (h : b.kept uri = reply :: rest) :
    (b.call uri t).1 = some reply ∧ (b.call uri t).2.kept uri = rest ∧
      (b.call uri t).2.waiting = b.waiting := by
  obtain ⟨hfound, hleft⟩ := takeReady_eq uri b.ready
  rw [show forUri uri b.ready = reply :: rest from h] at hfound hleft
  unfold call kept
  split
  · rename_i r ready htake
    rw [htake] at hfound hleft
    exact ⟨hfound, hleft, rfl⟩
  · rename_i htake
    simp [htake] at hfound

theorem call_of_kept_nil {b : Backend ρ} {t : Ticket} (h : b.kept uri = []) :
    b.call uri t = (none, { b with waiting := b.waiting ++ [⟨uri, t, true⟩] }) := by
  have hfound := (takeReady_eq uri b.ready).1
  rw [show forUri uri b.ready = [] from h] at hfound
  unfold call
  split
  · rename_i htake
    simp [htake] at hfound
  · rfl

theorem passes_settle (uri : String) (reply : ρ) (b : Backend ρ) :
    Passes (b.line uri) (b.settle uri reply).1 ((b.settle uri reply).2.line uri) := by
  have hpasses := passes_takeAwaited uri b.waiting
  unfold settle
  split
  all_goals
    rename_i htake
    rw [htake] at hpasses
    exact hpasses

theorem kept_settle (uri : String) (reply : ρ) (b : Backend ρ) :
    (b.settle uri reply).2.kept uri =
      if (b.settle uri reply).1 = none then b.kept uri ++ [reply] else b.kept uri := by
  unfold settle
  split <;> simp [kept]

/-- Nothing that is done for one URI changes what another has. -/
theorem call_of_ne (h : uri ≠ other) (t : Ticket) (b : Backend ρ) :
    (b.call uri t).2.kept other = b.kept other ∧ (b.call uri t).2.line other = b.line other := by
  have hleft := forUri_takeReady_of_ne h b.ready
  unfold call
  split
  · rename_i htake
    rw [htake] at hleft
    exact ⟨hleft, rfl⟩
  · simp [kept, line, h]

theorem settle_of_ne (h : uri ≠ other) (reply : ρ) (b : Backend ρ) :
    (b.settle uri reply).2.kept other = b.kept other ∧
      (b.settle uri reply).2.line other = b.line other := by
  have hleft := filter_takeAwaited_of_ne h b.waiting
  unfold settle
  split
  all_goals
    rename_i htake
    rw [htake] at hleft
  · exact ⟨rfl, hleft⟩
  · exact ⟨by simp [kept, forUri_cons_of_ne h], hleft⟩

theorem line_abandon (t : Ticket) (b : Backend ρ) (uri : String) :
    (b.abandon t).line uri =
      (b.line uri).map fun c => if c.caller = t then { c with awaited := false } else c := by
  simp only [line, abandon, List.filter_map]
  congr 1
  refine List.filter_congr fun c _ => ?_
  simp only [Function.comp_apply]
  split <;> rfl

/-! ## Histories -/

/-- What is done with a backend.  Calls are numbered in the order in which they are made. -/
inductive Use (ρ : Type) where
  | call (uri : String)
  | settle (uri : String) (reply : ρ)
  /-- the caller of a call stops waiting -/
  | abandon (caller : Ticket)

/-- The URI that a use is about. -/
def Use.uri? : Use ρ → Option String
  | .call uri => some uri
  | .settle uri _ => some uri
  | .abandon _ => none

/-- A backend and the record of what was done with it, in order. -/
structure History (ρ : Type) where
  backend : Backend ρ
  /-- the calls -/
  made : List (String × Ticket)
  /-- the replies that came -/
  settled : List (String × ρ)
  /-- the replies that were handed out, each with the call that it was handed to -/
  handed : List (String × (Ticket × ρ))
  /-- the calls that were given up, before or after they had a reply -/
  dropped : List Ticket

namespace History

/-- Nothing was done. -/
def empty : History ρ := ⟨Backend.empty, [], [], [], []⟩

/-- One more thing is done. -/
def after (h : History ρ) : Use ρ → History ρ
  | .call uri =>
    let answer := h.backend.call uri h.made.length
    { h with
      backend := answer.2
      made := h.made ++ [(uri, h.made.length)]
      handed := h.handed ++ answer.1.toList.map fun reply => (uri, h.made.length, reply) }
  | .settle uri reply =>
    let answer := h.backend.settle uri reply
    { h with
      backend := answer.2
      settled := h.settled ++ [(uri, reply)]
      handed := h.handed ++ answer.1.toList.map fun caller => (uri, caller, reply) }
  | .abandon caller =>
    { h with
      backend := h.backend.abandon caller
      dropped := if caller < h.made.length then caller :: h.dropped else h.dropped }

/-- The history of a list of uses. -/
def ofUses (uses : List (Use ρ)) : History ρ := uses.foldl after empty

/-- The calls of a URI that have a reply, in the order in which they were handed one. -/
def served (h : History ρ) (uri : String) : List Ticket := (forUri uri h.handed).map Prod.fst

/-- The calls of a URI that have no reply and were not given up. -/
def opened (h : History ρ) (uri : String) : List Ticket :=
  (forUri uri h.made).filter fun t => t ∉ h.served uri ∧ t ∉ h.dropped

@[simp] theorem ofUses_append_singleton (uses : List (Use ρ)) (use : Use ρ) :
    ofUses (uses ++ [use]) = (ofUses uses).after use := by
  simp [ofUses]

/-! ## What every history keeps to -/

/-- Calls are numbered in order, and only calls that were made are given up. -/
structure IsNumbered (h : History ρ) : Prop where
  made : h.made.map Prod.snd = List.range h.made.length
  dropped : ∀ t ∈ h.dropped, t < h.made.length

/-- The queues of one URI agree with the record.  The calls that were made are those that left the
line, followed by those that stand in it. -/
structure IsMatched (h : History ρ) (uri : String) : Prop where
  apart : h.backend.kept uri = [] ∨ h.backend.line uri = []
  replies : forUri uri h.settled = (forUri uri h.handed).map Prod.snd ++ h.backend.kept uri
  calls : ∃ gone, forUri uri h.made = gone ++ (h.backend.line uri).map Call.caller ∧
    (h.served uri).Sublist gone ∧ ∀ t ∈ gone, t ∈ h.served uri ∨ t ∈ h.dropped
  awaited : ∀ c ∈ h.backend.line uri, (c.awaited = true ↔ c.caller ∉ h.dropped)

variable {h : History ρ}

theorem isNumbered_empty : (empty : History ρ).IsNumbered :=
  ⟨rfl, by simp [empty]⟩

theorem IsNumbered.after (hn : h.IsNumbered) (use : Use ρ) : (h.after use).IsNumbered := by
  cases use with
  | call u =>
    refine ⟨?_, fun t ht => ?_⟩
    · simp [History.after, hn.made, List.range_succ]
    · simp only [History.after, List.length_append]
      exact Nat.lt_add_right _ (hn.dropped t ht)
  | settle u reply => exact ⟨hn.made, hn.dropped⟩
  | abandon t =>
    refine ⟨hn.made, fun t' ht' => ?_⟩
    simp only [History.after] at ht' ⊢
    split at ht'
    · rcases List.mem_cons.1 ht' with rfl | ht'
      · assumption
      · exact hn.dropped t' ht'
    · exact hn.dropped t' ht'

/-- A call that was made has a number below the next. -/
theorem IsNumbered.lt_of_mem (hn : h.IsNumbered) {t : Ticket} (ht : t ∈ forUri uri h.made) :
    t < h.made.length := by
  have := (forUri_sublist h.made).subset ht
  rwa [hn.made, List.mem_range] at this

theorem isMatched_empty (uri : String) : (empty : History ρ).IsMatched uri :=
  ⟨.inl rfl, rfl, ⟨[], rfl, .slnil, by simp⟩, by simp [empty, line, Backend.empty]⟩

/-- A use that is about another URI leaves everything of this one as it was. -/
theorem after_of_ne {use : Use ρ} {u : String} (huse : use.uri? = some u) (hne : u ≠ uri) :
    (h.after use).backend.kept uri = h.backend.kept uri ∧
      (h.after use).backend.line uri = h.backend.line uri ∧
      forUri uri (h.after use).made = forUri uri h.made ∧
      forUri uri (h.after use).settled = forUri uri h.settled ∧
      forUri uri (h.after use).handed = forUri uri h.handed ∧
      (h.after use).dropped = h.dropped := by
  cases use with
  | call v =>
    obtain rfl : v = u := Option.some.inj huse
    obtain ⟨hkept, hline⟩ := call_of_ne hne h.made.length h.backend
    refine ⟨hkept, hline, ?_, rfl, ?_, rfl⟩
    · simp [History.after, forUri_cons_of_ne hne]
    · cases hfound : (h.backend.call v h.made.length).1 with
      | none => simp [History.after, hfound]
      | some reply => simp [History.after, hfound, forUri_cons_of_ne hne]
  | settle v reply =>
    obtain rfl : v = u := Option.some.inj huse
    obtain ⟨hkept, hline⟩ := settle_of_ne hne reply h.backend
    refine ⟨hkept, hline, rfl, ?_, ?_, rfl⟩
    · simp [History.after, forUri_cons_of_ne hne]
    · cases hfound : (h.backend.settle v reply).1 with
      | none => simp [History.after, hfound]
      | some caller => simp [History.after, hfound, forUri_cons_of_ne hne]
  | abandon t => simp [Use.uri?] at huse

@[simp] theorem made_after_call : forUri uri (h.after (.call uri)).made =
    forUri uri h.made ++ [h.made.length] := by
  simp [after]

theorem mem_dropped_after_abandon {t t' : Ticket} :
    t' ∈ (h.after (.abandon t)).dropped ↔ (t' = t ∧ t < h.made.length) ∨ t' ∈ h.dropped := by
  by_cases ht : t < h.made.length <;> simp [after, ht]

@[simp] theorem settled_after_call : (h.after (.call uri)).settled = h.settled := rfl

@[simp] theorem made_after_settle (reply : ρ) : (h.after (.settle uri reply)).made = h.made := rfl

@[simp] theorem settled_after_settle (reply : ρ) :
    forUri uri (h.after (.settle uri reply)).settled = forUri uri h.settled ++ [reply] := by
  simp [after]

/-- A call is handed the oldest reply that is ready, if any is. -/
theorem handed_after_call (h : History ρ) (uri : String) :
    forUri uri (h.after (.call uri)).handed = forUri uri h.handed ++
      ((h.backend.kept uri).head?.map fun r => (h.made.length, r)).toList := by
  cases hkept : h.backend.kept uri with
  | nil => simp [after, call_of_kept_nil hkept]
  | cons reply rest => simp [after, (call_of_kept_cons hkept).1]

/-- A reply is handed to the call that the backend finds for it, if any. -/
theorem handed_after_settle (h : History ρ) (uri : String) (reply : ρ) :
    forUri uri (h.after (.settle uri reply)).handed = forUri uri h.handed ++
      ((h.backend.settle uri reply).1.map fun t => (t, reply)).toList := by
  cases hfound : (h.backend.settle uri reply).1 <;> simp [after, hfound]

theorem IsMatched.after_call (hm : h.IsMatched uri) (hn : h.IsNumbered) :
    (h.after (.call uri)).IsMatched uri := by
  obtain ⟨gone, hmade, hserved, hgone⟩ := hm.calls
  have hreplies := hm.replies
  have hhanded := handed_after_call h uri
  cases hkept : h.backend.kept uri with
  | nil =>
    have hcall := call_of_kept_nil (t := h.made.length) hkept
    have hline : (h.after (.call uri)).backend.line uri =
        h.backend.line uri ++ [⟨uri, h.made.length, true⟩] := by
      simp [after, hcall, line]
    have hnone : (h.after (.call uri)).backend.kept uri = [] := by
      simpa [after, hcall, kept] using hkept
    rw [hkept] at hhanded hreplies
    have hsame : (h.after (.call uri)).served uri = h.served uri := by
      simp [served, hhanded]
    refine ⟨.inl hnone, ?_, ⟨gone, ?_, ?_, ?_⟩, ?_⟩
    · rw [hhanded, hnone]
      simpa using hreplies
    · rw [made_after_call, hline, hmade, List.map_append, List.append_assoc]
      rfl
    · rwa [hsame]
    · rwa [hsame]
    · intro c hc
      rcases List.mem_append.1 (hline ▸ hc) with hc | hc
      · exact hm.awaited c hc
      · obtain rfl := List.mem_singleton.1 hc
        exact iff_of_true rfl fun hdropped => Nat.lt_irrefl _ (hn.dropped _ hdropped)
  | cons reply rest =>
    obtain ⟨-, hrest, hwaiting⟩ := call_of_kept_cons (t := h.made.length) hkept
    have hempty : h.backend.line uri = [] := by
      simpa [hkept] using hm.apart
    have hline : (h.after (.call uri)).backend.line uri = [] := by
      rw [← hempty]
      exact congrArg (List.filter _) hwaiting
    rw [hkept] at hhanded hreplies
    have hmore : (h.after (.call uri)).served uri = h.served uri ++ [h.made.length] := by
      simp [served, hhanded]
    refine ⟨.inr hline, ?_, ⟨gone ++ [h.made.length], ?_, ?_, ?_⟩, by simp [hline]⟩
    · rw [hhanded, show (h.after (.call uri)).backend.kept uri = rest from hrest]
      simpa using hreplies
    · simp [hline, hmade, hempty]
    · rw [hmore]
      exact hserved.append_right _
    · intro t ht
      rw [hmore, List.mem_append]
      rcases List.mem_append.1 ht with ht | ht
      · exact (hgone t ht).imp_left .inl
      · exact .inl (.inr ht)

theorem IsMatched.dropped_of_not_awaited (hm : h.IsMatched uri) {c : Call}
    (hc : c ∈ h.backend.line uri) (hunawaited : c.awaited = false) : c.caller ∈ h.dropped := by
  simpa [hunawaited] using hm.awaited c hc

theorem IsMatched.after_settle (hm : h.IsMatched uri) (reply : ρ) :
    (h.after (.settle uri reply)).IsMatched uri := by
  obtain ⟨gone, hmade, hserved, hgone⟩ := hm.calls
  have hhanded := handed_after_settle h uri reply
  have hkept : (h.after (.settle uri reply)).backend.kept uri =
      if (h.backend.settle uri reply).1 = none then h.backend.kept uri ++ [reply]
        else h.backend.kept uri := kept_settle uri reply h.backend
  obtain ⟨dead, hunawaited, hfound⟩ := passes_settle uri reply h.backend
  have hdead : ∀ d ∈ dead, d ∈ h.backend.line uri := by
    rcases hfound with ⟨c, hline, -⟩ | ⟨hline, -⟩
    · exact fun d hd => hline ▸ List.mem_append_left _ hd
    · exact fun d hd => hline ▸ hd
  -- the calls that are passed over leave the line with those that left it before
  have hpassed : ∀ t ∈ gone ++ dead.map Call.caller, t ∈ h.served uri ∨ t ∈ h.dropped := by
    intro t ht
    rcases List.mem_append.1 ht with ht | ht
    · exact hgone t ht
    · obtain ⟨d, hd, rfl⟩ := List.mem_map.1 ht
      exact .inr (hm.dropped_of_not_awaited (hdead d hd) (hunawaited d hd))
  have hbefore := hserved.trans (List.sublist_append_left gone (dead.map Call.caller))
  rcases hfound with ⟨c, hline, -, hfound⟩ | ⟨hline, hleft, hfound⟩
  · have hnone : h.backend.kept uri = [] := by
      simpa [hline] using hm.apart
    have hreplies := hm.replies
    rw [hfound] at hhanded hkept
    rw [hnone] at hkept hreplies
    replace hkept : (h.after (.settle uri reply)).backend.kept uri = [] := by simpa using hkept
    have hmore : (h.after (.settle uri reply)).served uri = h.served uri ++ [c.caller] := by
      simp [served, hhanded]
    refine ⟨.inl hkept, ?_, ⟨gone ++ dead.map Call.caller ++ [c.caller], ?_, ?_, ?_⟩, ?_⟩
    · rw [settled_after_settle, hhanded, hkept, hreplies]
      simp
    · rw [made_after_settle, hmade, hline]
      simp [after]
    · rw [hmore]
      exact hbefore.append_right _
    · intro t ht
      rw [hmore, List.mem_append]
      rcases List.mem_append.1 ht with ht | ht
      · exact (hpassed t ht).imp_left .inl
      · exact .inl (.inr ht)
    · intro next hnext
      exact hm.awaited next (hline ▸ List.mem_append_right _ (List.mem_cons_of_mem _ hnext))
  · rw [hfound] at hhanded hkept
    replace hkept : (h.after (.settle uri reply)).backend.kept uri =
        h.backend.kept uri ++ [reply] := by simpa using hkept
    replace hleft : (h.after (.settle uri reply)).backend.line uri = [] := hleft
    have hsame : (h.after (.settle uri reply)).served uri = h.served uri := by
      simp [served, hhanded]
    refine ⟨.inr hleft, ?_, ⟨gone ++ dead.map Call.caller, ?_, ?_, ?_⟩, by simp [hleft]⟩
    · rw [settled_after_settle, hhanded, hkept, hm.replies]
      simp
    · rw [made_after_settle, hmade, hline, hleft, List.map_nil, List.append_nil]
    · rwa [hsame]
    · rwa [hsame]

theorem IsMatched.after_abandon (hm : h.IsMatched uri) (hn : h.IsNumbered) (t : Ticket) :
    (h.after (.abandon t)).IsMatched uri := by
  obtain ⟨gone, hmade, hserved, hgone⟩ := hm.calls
  have hline : (h.after (.abandon t)).backend.line uri = (h.backend.line uri).map fun c =>
      if c.caller = t then { c with awaited := false } else c := line_abandon t h.backend uri
  have hcallers : ((h.after (.abandon t)).backend.line uri).map Call.caller =
      (h.backend.line uri).map Call.caller := by
    rw [hline, List.map_map]
    refine List.map_congr_left fun c _ => ?_
    simp only [Function.comp_apply]
    split <;> rfl
  refine ⟨?_, hm.replies, ⟨gone, ?_, hserved, fun t' ht' => ?_⟩, ?_⟩
  · exact hm.apart.imp_right fun hempty => by rw [hline, hempty, List.map_nil]
  · rw [hcallers]
    exact hmade
  · exact (hgone t' ht').imp_right fun hdropped => mem_dropped_after_abandon.2 (.inr hdropped)
  · intro changed hchanged
    obtain ⟨c, hc, rfl⟩ := List.mem_map.1 (hline ▸ hchanged)
    have hknown : c.caller ∈ forUri uri h.made :=
      hmade ▸ List.mem_append_right _ (List.mem_map_of_mem hc)
    rw [mem_dropped_after_abandon]
    by_cases ht : c.caller = t
    · simp [ht, ht ▸ hn.lt_of_mem hknown]
    · simp [ht, hm.awaited c hc]

/-- Whatever is done next, the queues of a URI agree with the record. -/
theorem IsMatched.after (hm : h.IsMatched uri) (hn : h.IsNumbered) (use : Use ρ) :
    (h.after use).IsMatched uri := by
  by_cases hother : ∃ u, use.uri? = some u ∧ u ≠ uri
  · obtain ⟨u, huse, hne⟩ := hother
    obtain ⟨hkept, hline, hmade, hsettled, hhanded, hdropped⟩ := after_of_ne (h := h) huse hne
    obtain ⟨hapart, hreplies, hcalls, hawaited⟩ := hm
    refine ⟨?_, ?_, ?_, ?_⟩
    · rwa [hkept, hline]
    · rwa [hkept, hsettled, hhanded]
    · simpa only [served, hline, hmade, hhanded, hdropped] using hcalls
    · rwa [hline, hdropped]
  · cases use with
    | call u =>
      obtain rfl : u = uri := by simpa [Use.uri?] using hother
      exact hm.after_call hn
    | settle u reply =>
      obtain rfl : u = uri := by simpa [Use.uri?] using hother
      exact hm.after_settle reply
    | abandon t => exact hm.after_abandon hn t

theorem isNumbered_ofUses (uses : List (Use ρ)) : (ofUses uses).IsNumbered := by
  induction uses using List.reverseRecOn with
  | nil => exact isNumbered_empty
  | append_singleton uses use ih =>
    rw [ofUses_append_singleton]
    exact ih.after use

theorem isMatched_ofUses (uses : List (Use ρ)) (uri : String) : (ofUses uses).IsMatched uri := by
  induction uses using List.reverseRecOn with
  | nil => exact isMatched_empty uri
  | append_singleton uses use ih =>
    rw [ofUses_append_singleton]
    exact ih.after (isNumbered_ofUses uses) use

/-! ## The order of the calls of one URI -/

theorem IsNumbered.pairwise_made (hn : h.IsNumbered) (uri : String) :
    (forUri uri h.made).Pairwise (· < ·) :=
  List.pairwise_lt_range.sublist (hn.made ▸ forUri_sublist h.made)

/-- The calls without a reply that were not given up are those in line that are awaited. -/
theorem IsMatched.opened_eq (hm : h.IsMatched uri) (hn : h.IsNumbered) :
    h.opened uri = ((h.backend.line uri).filter Call.awaited).map Call.caller := by
  obtain ⟨gone, hmade, hserved, hgone⟩ := hm.calls
  have hsorted := hn.pairwise_made uri
  rw [hmade, List.pairwise_append] at hsorted
  obtain ⟨-, -, hbefore⟩ := hsorted
  have hnone : gone.filter (fun t => t ∉ h.served uri ∧ t ∉ h.dropped) = [] := by
    refine List.filter_eq_nil_iff.2 fun t ht => ?_
    have := hgone t ht
    simp only [decide_eq_true_eq]
    tauto
  have hwaits : ((h.backend.line uri).map Call.caller).filter
      (fun t => t ∉ h.served uri ∧ t ∉ h.dropped) =
        ((h.backend.line uri).filter Call.awaited).map Call.caller := by
    rw [List.filter_map]
    refine congrArg _ (List.filter_congr fun c hc => ?_)
    have hunserved : c.caller ∉ h.served uri := fun hc' =>
      Nat.lt_irrefl _ (hbefore _ (hserved.subset hc') _ (List.mem_map_of_mem hc))
    rw [Bool.eq_iff_iff, hm.awaited c hc]
    simp [hunserved]
  rw [opened, hmade, List.filter_append, hnone, hwaits, List.nil_append]

/-- A reply is handed to the first call that has none and was not given up. -/
theorem IsMatched.settle_eq (hm : h.IsMatched uri) (hn : h.IsNumbered) (reply : ρ) :
    (h.backend.settle uri reply).1 = (h.opened uri).head? := by
  rw [hm.opened_eq hn]
  obtain ⟨dead, hunawaited, hfound⟩ := passes_settle uri reply h.backend
  have hnone : dead.filter Call.awaited = [] :=
    List.filter_eq_nil_iff.2 fun c hc => by simp [hunawaited c hc]
  rcases hfound with ⟨c, hline, hawaited, hfound⟩ | ⟨hline, -, hfound⟩
  · rw [hfound, hline]
    simp [hnone, hawaited]
  · rw [hfound, hline, hnone]
    rfl

/-- A reply is kept if every call that was made is served or given up. -/
theorem IsMatched.kept_after_settle (hm : h.IsMatched uri) (hn : h.IsNumbered) (reply : ρ) :
    (h.after (.settle uri reply)).backend.kept uri =
      h.backend.kept uri ++ if h.opened uri = [] then [reply] else [] := by
  refine (kept_settle uri reply h.backend).trans ?_
  simp only [hm.settle_eq hn, List.head?_eq_none_iff]
  split
  · rfl
  · rw [List.append_nil]

end History

/-- Calls and replies meet first in, first out, for each URI by itself, and nothing is lost.  There
are never both replies that are ready and calls in line.  The replies that came are those that were
handed out followed by those that are ready, so that each was handed to one call or is kept.  They
were handed out to calls in the order in which the calls were made, no call having two, and a call
that was passed over had been given up; a call that was neither served nor given up stands in line.
A call takes the oldest reply that is ready, and a reply goes to the oldest call that waits for it
or is kept. -/
theorem first_in_first_out (uses : List (Use ρ)) (uri : String) :
    let h := History.ofUses uses
    (h.backend.kept uri = [] ∨ h.backend.line uri = []) ∧
    forUri uri h.settled = (forUri uri h.handed).map Prod.snd ++ h.backend.kept uri ∧
    (h.served uri).Pairwise (· < ·) ∧
    (∀ t ∈ h.served uri, t ∈ forUri uri h.made ∧
      ∀ t' ∈ forUri uri h.made, t' < t → t' ∈ h.served uri ∨ t' ∈ h.dropped) ∧
    h.opened uri = ((h.backend.line uri).filter Call.awaited).map Call.caller ∧
    forUri uri (h.after (.call uri)).handed =
      forUri uri h.handed ++
        ((h.backend.kept uri).head?.map fun reply => (h.made.length, reply)).toList ∧
    (∀ reply, forUri uri (h.after (.settle uri reply)).handed =
        forUri uri h.handed ++ ((h.opened uri).head?.map fun t => (t, reply)).toList ∧
      (h.after (.settle uri reply)).backend.kept uri =
        h.backend.kept uri ++ if h.opened uri = [] then [reply] else []) ∧
    ∀ use u, Use.uri? use = some u → u ≠ uri →
      forUri uri (h.after use).handed = forUri uri h.handed ∧
      (h.after use).backend.kept uri = h.backend.kept uri ∧
      (h.after use).backend.line uri = h.backend.line uri := by
  intro h
  have hm := History.isMatched_ofUses uses uri
  have hn := History.isNumbered_ofUses uses
  obtain ⟨gone, hmade, hserved, hgone⟩ := hm.calls
  have hsorted := hn.pairwise_made uri
  rw [hmade, List.pairwise_append] at hsorted
  obtain ⟨hfirst, -, hbefore⟩ := hsorted
  refine ⟨hm.apart, hm.replies, hfirst.sublist hserved, fun t ht => ⟨?_, fun t' ht' hlt => ?_⟩,
    hm.opened_eq hn, History.handed_after_call h uri,
    fun reply => ⟨?_, hm.kept_after_settle hn reply⟩, fun use u huse hne => ?_⟩
  · rw [hmade]
    exact List.mem_append_left _ (hserved.subset ht)
  · rw [hmade] at ht'
    rcases List.mem_append.1 ht' with ht' | ht'
    · exact hgone t' ht'
    · exact absurd hlt (Nat.lt_asymm (hbefore t (hserved.subset ht) t' ht'))
  · rw [History.handed_after_settle, hm.settle_eq hn]
  · obtain ⟨hkept, hline, -, -, hhanded, -⟩ := History.after_of_ne (h := h) huse hne
    exact ⟨hhanded, hkept, hline⟩

/-- The first of two calls is given up before a reply comes: the reply passes it over, and the next
one is kept until another call takes it. -/
theorem first_in_first_out_of_abandoned_call :
    let h := History.ofUses [.call "a", .call "a", .call "b", .abandon 0, .settle "a" 7,
      .settle "a" 8]
    forUri "a" h.handed = [(1, 7)] ∧ h.backend.kept "a" = [8] ∧ h.opened "b" = [2] ∧
      (0 ∈ h.served "a" ∨ 0 ∈ h.dropped) ∧
      forUri "a" (h.after (.call "a")).handed = [(1, 7), (3, 8)] ∧
      forUri "b" (h.after (.call "a")).handed = forUri "b" h.handed := by
  intro h
  have hhanded : forUri "a" h.handed = [(1, 7)] := by decide +kernel
  have hkept : h.backend.kept "a" = [8] := by decide +kernel
  obtain ⟨-, -, -, hserved, -, hcall, -, -⟩ := first_in_first_out
    [.call "a", .call "a", .call "b", .abandon 0, .settle "a" 7, .settle "a" 8] "a"
  refine ⟨hhanded, hkept, by decide +kernel, (hserved 1 (by decide +kernel)).2 0
    (by decide +kernel) (by decide), hcall.trans ?_, ?_⟩
  · rw [show forUri "a" (History.ofUses _).handed = [(1, 7)] from hhanded,
      show (History.ofUses _).backend.kept "a" = [8] from hkept]
    decide +kernel
  · obtain ⟨-, -, -, -, -, -, -, hother⟩ := first_in_first_out
      [.call "a", .call "a", .call "b", .abandon 0, .settle "a" 7, .settle "a" 8] "b"
    exact (hother (.call "a") "a" rfl (by decide)).1

end CoverageTracker.Backend
