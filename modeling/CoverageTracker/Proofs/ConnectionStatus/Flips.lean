import CoverageTracker.ConnectionStatus
import Mathlib.Data.List.Induction
set_option autoImplicit false

/-!
# Flips are noticed, and nothing else is

A history of uses says by itself which value was set last (`latest`), how often the value flipped
(`flips`), which handles and receivers are there (`HandleLives`, `ReceiverLives`), and when a
receiver marked what it saw (`Use.Marks`).  It fails only at a use of a handle or receiver that is
not there (`isSome_useAll`).  The channel holds no more than the first two of these:
its value is the latest one and its version is the number of flips (`channel_useAll`).  A receiver
remembers the number of flips up to its mark (`seen?_since_mark`), so it has something new to see
exactly if there was a flip since, even if the value flipped back, and the value itself differs
exactly if the number of flips since is odd (`changed_iff_flips`).
-/

namespace CoverageTracker.ConnectionStatus

/-! ## Histories -/

/-- What is done with a handle or a receiver. -/
inductive Use where
  | set (h : Nat) (connected : Bool)
  | isConnected (h : Nat)
  | clone (h : Nat)
  | subscribe (h : Nat)
  | dropHandle (h : Nat)
  | dropReceiver (r : Nat)
  | hasChanged (r : Nat)
  | borrow (r : Nat)
  | update (r : Nat)
  deriving DecidableEq, Repr

/-- The connection status after a use; none if the handle or receiver is not there. -/
def use (u : Use) (c : ConnectionStatus) : Option ConnectionStatus :=
  match u with
  | .set h connected => c.set h connected
  | .isConnected h => (c.isConnected h).map fun _ => c
  | .clone h => (c.clone h).map Prod.snd
  | .subscribe h => (c.subscribe h).map Prod.snd
  | .dropHandle h => (c.dropHandle h).map Prod.snd
  | .dropReceiver r => (c.dropReceiver r).map Prod.snd
  | .hasChanged r => (c.hasChanged r).map fun _ => c
  | .borrow r => (c.borrow r).map fun _ => c
  | .update r => (c.update r).map Prod.snd

/-- The handle or receiver that a use names is there.  To drop it, it is enough that it was made. -/
def Use.Finds (c : ConnectionStatus) : Use → Prop
  | .set h _ | .isConnected h | .clone h | .subscribe h => c.hasHandle h = true
  | .dropHandle h => h < c.handles.length
  | .dropReceiver r => r < c.receivers.length
  | .hasChanged r | .borrow r | .update r => (c.seen? r).isSome = true

/-- A use succeeds exactly if the handle or receiver that it names is there. -/
theorem isSome_use (u : Use) (c : ConnectionStatus) : (c.use u).isSome = true ↔ u.Finds c := by
  cases u <;>
    simp [use, Use.Finds, ConnectionStatus.set, ConnectionStatus.isConnected,
      ConnectionStatus.clone, ConnectionStatus.subscribe, ConnectionStatus.dropHandle,
      ConnectionStatus.dropReceiver, ConnectionStatus.hasChanged, ConnectionStatus.borrow,
      ConnectionStatus.update]

/-- The connection status after uses one after another. -/
def useAll (uses : List Use) (c : ConnectionStatus) : Option ConnectionStatus :=
  uses.foldlM (fun c u => c.use u) c

/-- The values that were set, through whatever handle. -/
def valuesSet (uses : List Use) : List Bool :=
  uses.filterMap fun
    | .set _ connected => some connected
    | _ => none

/-- The value after others were set. -/
def latest (value : Bool) (values : List Bool) : Bool := values.getLast?.getD value

/-- How often the value changes when others are set. -/
def flips : Bool → List Bool → Nat
  | _, [] => 0
  | value, next :: values => (if value = next then 0 else 1) + flips next values

def Use.makesHandle : Use → Bool
  | .clone _ => true
  | _ => false

def Use.makesReceiver : Use → Bool
  | .subscribe _ => true
  | _ => false

/-- How many handles were made of others. -/
def clones (uses : List Use) : Nat := uses.countP Use.makesHandle

/-- How many receivers were made. -/
def subscriptions (uses : List Use) : Nat := uses.countP Use.makesReceiver

/-- Whether a use, after those before it, makes a receiver see the value: it updates the receiver or
makes it. -/
def Use.Marks (r : Nat) (before : List Use) : Use → Prop
  | .update s => s = r
  | .subscribe _ => subscriptions before = r
  | _ => False

variable {u : Use} {uses before after : List Use} {c c' : ConnectionStatus} {h r : Nat}
  {value : Bool} {values : List Bool}

theorem useAll_append (before after : List Use) (c : ConnectionStatus) :
    c.useAll (before ++ after) = (c.useAll before).bind fun c => c.useAll after :=
  List.foldlM_append

theorem useAll_concat_eq_some (hrun : c.useAll (uses ++ [u]) = some c') :
    ∃ d, c.useAll uses = some d ∧ d.use u = some c' := by
  rw [useAll_append, Option.bind_eq_some_iff] at hrun
  obtain ⟨d, hd, hu⟩ := hrun
  refine ⟨d, hd, ?_⟩
  simpa [useAll] using hu

/-- What a use does, whoever is there. -/
inductive Effect (c : ConnectionStatus) : Use → ConnectionStatus → Prop where
  | set (h : Nat) (value : Bool) :
    Effect c (.set h value) { c with channel := c.channel.sendIfChanged value }
  | isConnected (h : Nat) : Effect c (.isConnected h) c
  | clone (h : Nat) : Effect c (.clone h) { c with handles := c.handles ++ [true] }
  | subscribe (h : Nat) :
    Effect c (.subscribe h) { c with receivers := c.receivers ++ [some c.channel.version] }
  | dropHandle (h : Nat) (hlt : h < c.handles.length) :
    Effect c (.dropHandle h) { c with handles := c.handles.set h false }
  | dropReceiver (r : Nat) (hlt : r < c.receivers.length) :
    Effect c (.dropReceiver r) { c with receivers := c.receivers.set r none }
  | hasChanged (r : Nat) : Effect c (.hasChanged r) c
  | borrow (r : Nat) : Effect c (.borrow r) c
  | update (r : Nat) {seen : Nat} (hseen : c.seen? r = some seen) :
    Effect c (.update r) { c with receivers := c.receivers.set r (some c.channel.version) }

theorem lt_of_seen? {seen : Nat} (hseen : c.seen? r = some seen) : r < c.receivers.length := by
  by_contra hge
  simp [seen?, List.getElem?_eq_none (Nat.le_of_not_lt hge)] at hseen

theorem effect_of_use (hu : c.use u = some c') : c.Effect u c' := by
  cases u <;>
    simp only [use, ConnectionStatus.set, ConnectionStatus.isConnected, ConnectionStatus.clone,
      ConnectionStatus.subscribe, ConnectionStatus.dropHandle, ConnectionStatus.dropReceiver,
      ConnectionStatus.hasChanged, ConnectionStatus.borrow, ConnectionStatus.update,
      Option.map_eq_some_iff, Option.ite_none_right_eq_some, Option.some.injEq] at hu
  case set h value =>
    obtain ⟨-, rfl⟩ := hu
    exact .set h value
  case isConnected h =>
    obtain ⟨_, -, rfl⟩ := hu
    exact .isConnected h
  case clone h =>
    obtain ⟨_, ⟨-, rfl⟩, rfl⟩ := hu
    exact .clone h
  case subscribe h =>
    obtain ⟨_, ⟨-, rfl⟩, rfl⟩ := hu
    exact .subscribe h
  case dropHandle h =>
    obtain ⟨_, ⟨_, hget, rfl⟩, rfl⟩ := hu
    exact .dropHandle h (List.getElem?_eq_some_iff.1 hget).1
  case dropReceiver r =>
    obtain ⟨_, ⟨_, hget, rfl⟩, rfl⟩ := hu
    exact .dropReceiver r (List.getElem?_eq_some_iff.1 hget).1
  case hasChanged r =>
    obtain ⟨_, -, rfl⟩ := hu
    exact .hasChanged r
  case borrow r =>
    obtain ⟨_, -, rfl⟩ := hu
    exact .borrow r
  case update r =>
    obtain ⟨_, ⟨_, hseen, rfl⟩, rfl⟩ := hu
    exact .update r hseen

/-- Whatever is true at the start, and every use keeps, is true after any uses. -/
theorem useAll_induction {P : List Use → ConnectionStatus → Prop}
    (hstep : ∀ uses u d d', P uses d → d.use u = some d' → P (uses ++ [u]) d') (hstart : P [] c) :
    c.useAll uses = some c' → P uses c' := by
  induction uses using List.reverseRecOn generalizing c' with
  | nil =>
    intro hrun
    cases hrun
    exact hstart
  | append_singleton uses u ih =>
    intro hrun
    obtain ⟨d, hd, hu⟩ := useAll_concat_eq_some hrun
    exact hstep uses u d c' (ih hd) hu

/-! ## Values and flips -/

theorem latest_append (value : Bool) (before after : List Bool) :
    latest value (before ++ after) = latest (latest value before) after := by
  unfold latest
  rw [List.getLast?_append]
  cases after.getLast? <;> rfl

theorem latest_cons (value next : Bool) (values : List Bool) :
    latest value (next :: values) = latest next values := by
  have happend := latest_append value [next] values
  simpa [latest] using happend

theorem flips_append (value : Bool) (before after : List Bool) :
    flips value (before ++ after) = flips value before + flips (latest value before) after := by
  induction before generalizing value with
  | nil => simp [flips, latest]
  | cons next before ih =>
    rw [List.cons_append, flips, flips, ih, latest_cons, Nat.add_assoc]

/-- An even number of flips leaves the value as it was, and an odd one does not. -/
theorem latest_ne_iff (value : Bool) (values : List Bool) :
    latest value values ≠ value ↔ flips value values % 2 = 1 := by
  induction values generalizing value with
  | nil => simp [latest, flips]
  | cons next values ih =>
    rw [latest_cons, flips]
    by_cases hsame : value = next
    · rw [if_pos hsame, Nat.zero_add, hsame, ih]
    · -- the latest value is one of two: not `value` means `next`
      have hother (b : Bool) : b ≠ value ↔ ¬ b ≠ next := by
        revert hsame
        cases value <;> cases next <;> cases b <;> decide
      rw [if_neg hsame, hother, ih]
      omega

/-! ## The channel -/

theorem valuesSet_append (before after : List Use) :
    valuesSet (before ++ after) = valuesSet before ++ valuesSet after :=
  List.filterMap_append

/-- What the channel is told is what is set. -/
theorem channel_use (hu : c.use u = some c') :
    c'.channel = (valuesSet [u]).foldl (fun w value => w.sendIfChanged value) c.channel := by
  cases effect_of_use hu <;> rfl

/-- Values that are set one after another leave the last of them, and raise the version at each
flip. -/
theorem sendIfChanged_foldl (values : List Bool) (w : Watch) :
    values.foldl (fun w value => w.sendIfChanged value) w =
      ⟨latest w.value values, w.version + flips w.value values⟩ := by
  induction values generalizing w with
  | nil => rfl
  | cons next values ih =>
    rw [List.foldl_cons, ih, latest_cons, flips]
    by_cases hsame : w.value = next
    · simp [Watch.sendIfChanged, hsame]
    · simp [Watch.sendIfChanged, Watch.send, hsame, Nat.add_assoc]

/-- The channel holds the value that was set last, and its version is the number of flips. -/
theorem channel_useAll (hrun : create.useAll uses = some c) :
    c.channel = ⟨latest false (valuesSet uses), flips false (valuesSet uses)⟩ := by
  have hfold : c.channel =
      (valuesSet uses).foldl (fun w value => w.sendIfChanged value) (Watch.create false) := by
    refine useAll_induction (P := fun uses c => c.channel =
      (valuesSet uses).foldl (fun w value => w.sendIfChanged value) (Watch.create false))
      (fun uses u d d' hd hu => ?_) rfl hrun
    rw [channel_use hu, hd, valuesSet_append, List.foldl_append]
  rw [hfold, sendIfChanged_foldl, Watch.create, Nat.zero_add]

/-! ## Handles and receivers -/

/-- A handle was made and not dropped. -/
def HandleLives (h : Nat) (uses : List Use) : Prop := h ≤ clones uses ∧ .dropHandle h ∉ uses

/-- A receiver was made and not dropped. -/
def ReceiverLives (r : Nat) (uses : List Use) : Prop :=
  r < subscriptions uses ∧ .dropReceiver r ∉ uses

/-- Things that are made one after another and may be dropped: which uses do so, how many were made
so far, and whether one is there. -/
structure Kind where
  makes : Use → Bool
  drops : Nat → Use
  count : ConnectionStatus → Nat
  there : ConnectionStatus → Nat → Prop

namespace Kind

/-- At the start all of them are there.  A use drops only what was made, and what was not made
before it is there unless it is dropped. -/
structure Lawful (k : Kind) : Prop where
  start : ∀ i, k.there create i ↔ i < k.count create
  count : ∀ u c c', c.use u = some c' → k.count c' = k.count c + [u].countP k.makes
  made : ∀ u c c' i, c.use u = some c' → u = k.drops i → i < k.count c
  there : ∀ u c c' i, c.use u = some c' →
    (k.there c' i ↔ i < k.count c' ∧ u ≠ k.drops i ∧ (i < k.count c → k.there c i))

/-- What is there was made and not dropped. -/
theorem Lawful.useAll {k : Kind} (hk : k.Lawful) (hrun : create.useAll uses = some c) :
    k.count c = k.count create + uses.countP k.makes ∧
      ∀ i, k.there c i ↔ i < k.count c ∧ k.drops i ∉ uses := by
  -- what was dropped had been made, so what is made next was never dropped
  have hinv : k.count c = k.count create + uses.countP k.makes ∧
      (∀ i, k.drops i ∈ uses → i < k.count c) ∧
      ∀ i, k.there c i ↔ i < k.count c ∧ k.drops i ∉ uses := by
    refine useAll_induction (P := fun uses c => k.count c = k.count create + uses.countP k.makes ∧
      (∀ i, k.drops i ∈ uses → i < k.count c) ∧
      ∀ i, k.there c i ↔ i < k.count c ∧ k.drops i ∉ uses)
      (fun uses u d d' hd hu => ?_) (by simp [hk.start]) hrun
    obtain ⟨hcount, hdropped, hthere⟩ := hd
    have hcount' := hk.count u d d' hu
    refine ⟨by rw [hcount', hcount, List.countP_append, Nat.add_assoc], fun i hi => ?_, fun i => ?_⟩
    · rcases List.mem_append.1 hi with hi | hi
      · have := hdropped i hi
        omega
      · have := hk.made u d d' i hu (List.mem_singleton.1 hi).symm
        omega
    · rw [hk.there u d d' i hu, hthere i]
      grind only [List.mem_append, List.mem_singleton]
  exact ⟨hinv.1, hinv.2.2⟩

/-- The handles. -/
def handles : Kind :=
  ⟨Use.makesHandle, .dropHandle, fun c => c.handles.length, fun c h => c.hasHandle h = true⟩

/-- The receivers. -/
def receivers : Kind :=
  ⟨Use.makesReceiver, .dropReceiver, fun c => c.receivers.length,
    fun c r => (c.seen? r).isSome = true⟩

theorem lawful_handles : handles.Lawful where
  start h := by cases h <;> simp [handles, create, hasHandle]
  count u c c' hu := by cases effect_of_use hu <;> simp [handles, Use.makesHandle]
  made u c c' h hu := by
    rintro rfl
    cases effect_of_use hu
    assumption
  there u c c' h hu := by
    cases effect_of_use hu <;>
      simp only [handles, hasHandle] <;>
      grind only [List.length_append, List.length_set, List.length_singleton, List.getElem?_append,
        List.getElem?_set, List.getElem?_singleton, List.getElem?_eq_none, Option.getD_some,
        Option.getD_none]

theorem lawful_receivers : receivers.Lawful where
  start r := by simp [receivers, create, seen?]
  count u c c' hu := by cases effect_of_use hu <;> simp [receivers, Use.makesReceiver]
  made u c c' r hu := by
    rintro rfl
    cases effect_of_use hu
    assumption
  there u c c' r hu := by
    cases effect_of_use hu <;>
      simp only [receivers, seen?] at * <;>
      grind only [List.length_append, List.length_set, List.length_singleton, List.getElem?_append,
        List.getElem?_set, List.getElem?_singleton, List.getElem?_eq_none, Option.join_some,
        Option.join_none, Option.isSome_some, Option.isSome_none]

end Kind

theorem handles_useAll (hrun : create.useAll uses = some c) :
    c.handles.length = clones uses + 1 ∧ ∀ h, c.hasHandle h = true ↔ HandleLives h uses := by
  obtain ⟨hcount, hthere⟩ := Kind.lawful_handles.useAll hrun
  have hcount : c.handles.length = clones uses + 1 := hcount.trans (Nat.add_comm _ _)
  refine ⟨hcount, fun h => ?_⟩
  have hthere : c.hasHandle h = true ↔ h < c.handles.length ∧ .dropHandle h ∉ uses := hthere h
  rw [hthere, hcount, HandleLives, Nat.lt_succ_iff]

theorem any_handles (hh : c.hasHandle h = true) : c.handles.any id = true := by
  rw [hasHandle] at hh
  refine List.any_eq_true.2 ⟨true, ?_, rfl⟩
  cases hget : c.handles[h]? with
  | none => simp [hget] at hh
  | some present =>
    rw [hget, Option.getD_some] at hh
    exact List.mem_of_getElem? (hh ▸ hget)

theorem receivers_useAll (hrun : create.useAll uses = some c) :
    c.receivers.length = subscriptions uses ∧
      ∀ r, (c.seen? r).isSome = true ↔ ReceiverLives r uses := by
  obtain ⟨hcount, hthere⟩ := Kind.lawful_receivers.useAll hrun
  have hcount : c.receivers.length = subscriptions uses := hcount.trans (Nat.zero_add _)
  refine ⟨hcount, fun r => ?_⟩
  rw [ReceiverLives, ← hcount]
  exact hthere r

/-! ## Which histories succeed -/

/-- The handle or receiver that a use names was made before it and not dropped.  To drop it, it is
enough that it was made. -/
def Use.Follows (before : List Use) : Use → Prop
  | .set h _ | .isConnected h | .clone h | .subscribe h => HandleLives h before
  | .dropHandle h => h ≤ clones before
  | .dropReceiver r => r < subscriptions before
  | .hasChanged r | .borrow r | .update r => ReceiverLives r before

theorem finds_iff_follows (hrun : create.useAll uses = some c) : u.Finds c ↔ u.Follows uses := by
  obtain ⟨hhandles, hhandle⟩ := handles_useAll hrun
  obtain ⟨hreceivers, hreceiver⟩ := receivers_useAll hrun
  cases u with
  | set h _ | isConnected h | clone h | subscribe h => exact hhandle h
  | dropHandle h => rw [Use.Finds, Use.Follows, hhandles, Nat.lt_succ_iff]
  | dropReceiver r => rw [Use.Finds, Use.Follows, hreceivers]
  | hasChanged r | borrow r | update r => exact hreceiver r

/-- The uses of a history succeed exactly if each of them names a handle or receiver that is there:
one that was made before it and not dropped. -/
theorem isSome_useAll : (create.useAll uses).isSome = true ↔
    ∀ before u, before ++ [u] <+: uses → u.Follows before := by
  induction uses using List.reverseRecOn with
  | nil => simp [useAll]
  | append_singleton uses u ih =>
    have hlast : (∀ before v, before ++ [v] <+: uses ++ [u] → v.Follows before) ↔
        u.Follows uses ∧ (create.useAll uses).isSome = true := by
      rw [ih]
      simp [List.prefix_concat_iff, or_imp, forall_and]
    rw [hlast, useAll_append]
    cases hrun : create.useAll uses with
    | none => simp
    | some c => simp [useAll, isSome_use, finds_iff_follows hrun]

/-! ## What a receiver has seen -/

/-- A receiver that marks what it sees has seen the current version. -/
theorem seen?_of_mark (hu : c.use u = some c') (hreceivers : c.receivers.length = subscriptions before)
    (hmark : u.Marks r before) :
    c'.seen? r = some c.channel.version := by
  cases effect_of_use hu <;> simp only [Use.Marks] at hmark
  case subscribe h => simp [seen?, ← hmark, ← hreceivers]
  case update s seen hseen =>
    subst hmark
    simp [seen?, lt_of_seen? hseen]

/-- Only an update changes what a receiver that is kept has seen. -/
theorem seen?_use (hu : c.use u = some c') (hlt : r < c.receivers.length) :
    r < c'.receivers.length ∧
      (u ≠ .update r → c'.seen? r = c.seen? r ∨ c'.seen? r = none) := by
  cases effect_of_use hu <;>
    simp only [seen?] at * <;>
    grind only [List.length_append, List.length_set, List.getElem?_append, List.getElem?_set,
      Option.join_some]

/-- Since its mark, a receiver remembers the number of flips up to it. -/
theorem seen?_since_mark {mark : Use} {seen : Nat}
    (hrun : create.useAll (before ++ mark :: after) = some c) (hmark : mark.Marks r before)
    (hsince : .update r ∉ after) (hseen : c.seen? r = some seen) :
    seen = flips false (valuesSet before) := by
  rw [useAll_append, Option.bind_eq_some_iff] at hrun
  obtain ⟨d, hbefore, hrun⟩ := hrun
  rw [useAll, List.foldlM_cons, Option.bind_eq_bind, Option.bind_eq_some_iff] at hrun
  obtain ⟨d', hmarked, hafter⟩ := hrun
  have hversion := seen?_of_mark hmarked (receivers_useAll hbefore).1 hmark
  rw [channel_useAll hbefore] at hversion
  have hkept : r < c.receivers.length ∧
      (.update r ∉ after → c.seen? r = d'.seen? r ∨ c.seen? r = none) := by
    refine useAll_induction (P := fun after c => r < c.receivers.length ∧
      (.update r ∉ after → c.seen? r = d'.seen? r ∨ c.seen? r = none))
      (fun uses u e e' he hu => ?_) ⟨lt_of_seen? hversion, fun _ => .inl rfl⟩ hafter
    obtain ⟨hlt, hseen⟩ := he
    obtain ⟨hlt', hseen'⟩ := seen?_use hu hlt
    refine ⟨hlt', fun hsince => ?_⟩
    rw [List.mem_append, not_or, List.mem_singleton] at hsince
    rcases hseen' (Ne.symm hsince.2) with heq | heq
    · rw [heq]
      exact hseen hsince.1
    · exact .inr heq
  rcases hkept.2 hsince with heq | heq
  · rw [hseen, hversion] at heq
    exact Option.some.inj heq
  · rw [hseen] at heq
    cases heq

/-- A receiver that was made has marked what it saw, and since then not again. -/
theorem exists_mark (hr : r < subscriptions uses) :
    ∃ before mark after, uses = before ++ mark :: after ∧ mark.Marks r before ∧
      .update r ∉ after := by
  induction uses using List.reverseRecOn with
  | nil => simp [subscriptions] at hr
  | append_singleton uses u ih =>
    by_cases hupdate : u = .update r
    · exact ⟨uses, u, [], rfl, by simp [hupdate, Use.Marks], by simp⟩
    by_cases hbefore : r < subscriptions uses
    · obtain ⟨before, mark, after, rfl, hmark, hsince⟩ := ih hbefore
      refine ⟨before, mark, after ++ [u], by simp, hmark, ?_⟩
      simp [hsince, Ne.symm hupdate]
    · -- the receiver is the one that is made now
      rw [subscriptions, List.countP_append, List.countP_singleton] at hr
      refine ⟨uses, u, [], rfl, ?_, by simp⟩
      have hmade : subscriptions uses = r ∧ u.makesReceiver = true := by
        unfold subscriptions at *
        split at hr <;> [exact ⟨by omega, ‹_›⟩; omega]
      cases u <;> first | exact hmade.1 | cases hmade.2

theorem valuesSet_mark {mark : Use} (hmark : mark.Marks r before) :
    valuesSet (before ++ mark :: after) = valuesSet before ++ valuesSet after := by
  rw [valuesSet_append]
  cases mark <;> first | rfl | exact absurd hmark id

/-! ## Notifications -/

/-- After any uses of handles and receivers that were there (`isSome_useAll`), every handle and every
receiver that is there finds the value that was set last.  While some handle is there, a receiver has
something new to see exactly if the value flipped since the receiver last marked what it saw, and
what it then sees differs from that exactly if the number of flips is odd. -/
theorem changed_iff_flips (hrun : create.useAll uses = some c) :
    (∀ h value, c.isConnected h = some value ↔
        HandleLives h uses ∧ value = latest false (valuesSet uses)) ∧
      (∀ r value, c.borrow r = some value ↔
        ReceiverLives r uses ∧ value = latest false (valuesSet uses)) ∧
      ∀ r, ReceiverLives r uses →
        (∃ before mark after, uses = before ++ mark :: after ∧ mark.Marks r before ∧
          .update r ∉ after) ∧
        ∀ before mark after, uses = before ++ mark :: after → mark.Marks r before →
          .update r ∉ after →
          let seen := latest false (valuesSet before)
          ((∃ h, HandleLives h uses) →
            c.hasChanged r = some (.ok (decide (0 < flips seen (valuesSet after))))) ∧
          ∃ now c', c.update r = some (now, c') ∧ now = latest false (valuesSet uses) ∧
            (now ≠ seen ↔ flips seen (valuesSet after) % 2 = 1) := by
  have hchannel := channel_useAll hrun
  refine ⟨fun h value => ?_, fun r value => ?_, fun r hr => ⟨exists_mark hr.1, ?_⟩⟩
  · rw [← (handles_useAll hrun).2 h, isConnected, hchannel, Option.ite_none_right_eq_some,
      Option.some_inj, @eq_comm _ value]
  · rw [← (receivers_useAll hrun).2 r, borrow, hchannel, Option.map_eq_some_iff,
      Option.isSome_iff_exists, exists_and_right, @eq_comm _ value]
  · rintro before mark after rfl hmark hsince
    obtain ⟨version, hseen⟩ := Option.isSome_iff_exists.1 (((receivers_useAll hrun).2 r).2 hr)
    have hversion := seen?_since_mark hrun hmark hsince hseen
    rw [valuesSet_mark hmark, latest_append, flips_append] at hchannel
    rw [valuesSet_mark hmark, latest_append]
    refine ⟨fun ⟨h, hh⟩ => ?_, _,
      { c with receivers := c.receivers.set r (some c.channel.version) }, ?_, rfl,
      latest_ne_iff _ _⟩
    · have hany := any_handles (((handles_useAll hrun).2 h).2 hh)
      have hbehind (version n : Nat) : (version != version + n) = decide (0 < n) := by
        rw [Bool.eq_iff_iff, bne_iff_ne, decide_eq_true_iff]
        omega
      rw [hasChanged, hseen, Option.map_some, if_pos hany, hversion, hchannel, hbehind]
    · rw [update, hseen, Option.map_some, hchannel]

/-- A receiver is told of a value that another handle flipped back, and finds the value that it had
seen. -/
theorem changed_iff_flips_of_flip_back :
    let uses : List Use :=
      [.clone 0, .set 0 true, .subscribe 0, .set 0 false, .set 1 true, .set 1 true, .dropHandle 0]
    ∃ c, create.useAll uses = some c ∧ HandleLives 1 uses ∧ ReceiverLives 0 uses ∧
      c.isConnected 1 = some true ∧ c.borrow 0 = some true ∧ c.hasChanged 0 = some (.ok true) ∧
      ∃ c', c.update 0 = some (true, c') := by
  intro uses
  have hhandle : HandleLives 1 uses := ⟨by decide, by decide⟩
  have hreceiver : ReceiverLives 0 uses := ⟨by decide, by decide⟩
  obtain ⟨c, hrun⟩ : ∃ c, create.useAll uses = some c := ⟨_, rfl⟩
  obtain ⟨hvalue, hborrow, hreceivers⟩ := changed_iff_flips hrun
  obtain ⟨hchanged, now, c', hupdate, hnow, -⟩ := (hreceivers 0 hreceiver).2
    [.clone 0, .set 0 true] (.subscribe 0) _ rfl rfl (by decide)
  refine ⟨c, hrun, hhandle, hreceiver, (hvalue 1 true).2 ⟨hhandle, by decide⟩,
    (hborrow 0 true).2 ⟨hreceiver, by decide⟩, hchanged ⟨1, hhandle⟩, c', ?_⟩
  rw [hupdate, hnow]
  rfl

end CoverageTracker.ConnectionStatus
