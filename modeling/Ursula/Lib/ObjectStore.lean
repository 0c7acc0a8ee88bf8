import Mathlib.Data.List.Forall2
import Mathlib.Logic.Function.Basic

/-!
# Object stores

A store keeps an encoded value under each key. Its requests can fail, and a put that fails may have
been carried out. A program on a store stops at the first request that fails, and at a value that
cannot be encoded. The programs here rewrite the values of some keys one after another.

## Main definitions

* `ObjectStore`, `ObjectStore.Program`: a store, and programs on it
* `ObjectStore.Codec.rewrite`, `ObjectStore.Codec.rewriteEach`: reading a value and putting another

## Main results

* `ObjectStore.Codec.rewrites_rewrite`: what rewriting one value does
* `ObjectStore.Codec.rewritesEach_rewriteEach`: what rewriting the values of distinct keys does
-/

open List

/-- A request that fails, with its error. A put that fails may have been carried out. -/
structure ObjectStore.Fault (ε : Type) where
  error : ε
  applied : Bool

/-- The objects of a store, and how the requests to come fare. -/
structure ObjectStore (K O ε : Type) where
  objects : K → Option O
  faults : List (Option (ObjectStore.Fault ε))

namespace ObjectStore

variable {K V O ε α β ι : Type}

/-- The fault of the next request. -/
def fault (store : ObjectStore K O ε) : Option (Fault ε) := store.faults.head?.join

/-- The store once a request was made. -/
def asked (store : ObjectStore K O ε) : ObjectStore K O ε :=
  { store with faults := store.faults.tail }

/-- The store once a put was carried out. -/
def withObject [DecidableEq K] (store : ObjectStore K O ε) (key : K) (object : O) :
    ObjectStore K O ε :=
  { store.asked with objects := Function.update store.objects key (some object) }

/-- No request fails. -/
def Healthy (store : ObjectStore K O ε) : Prop := ∀ fault ∈ store.faults, fault = none

/-- Why a program stops: a request that fails, or a value that cannot be encoded. -/
inductive Stop (ε : Type)
  | failed (error : ε)
  | panic

/-- A program on a store. -/
abbrev Program (K O ε α : Type) := ExceptT (Stop ε) (StateM (ObjectStore K O ε)) α

/-- What a program returns on a store, and the store it leaves. -/
def Program.on (program : Program K O ε α) (store : ObjectStore K O ε) :
    Except (Stop ε) α × ObjectStore K O ε :=
  StateT.run (ExceptT.run program) store

/-- How the values of a store are encoded, each for its key. -/
structure Codec (K V O ε : Type) where
  encode : K → V → Option O
  decode : K → O → Except ε V

namespace Codec

variable (codec : Codec K V O ε)

/-- The value that an object holds. -/
def read (key : K) : Option O → Except ε (Option V)
  | none => .ok none
  | some object => (codec.decode key object).map some

/-- Gets the value of a key. -/
def get (key : K) : Program K O ε (Option V) := fun store =>
  match store.fault with
  | some fault => (.error (.failed fault.error), store.asked)
  | none => ((codec.read key (store.objects key)).mapError .failed, store.asked)

/-- What a writer makes of a value: the value to put, if any, and its answer. -/
abbrev Change (V β : Type) := Option V → Option V × β

/-- What a rewriting leaves under its key, and its answer, when no request fails. -/
def rewritten (key : K) (change : Change V β) (object : Option O) : Option (Option O × β) :=
  match codec.read key object with
  | .error _ => none
  | .ok previous =>
    match change previous with
    | (none, answer) => some (object, answer)
    | (some value, answer) => (codec.encode key value).map fun text => (some text, answer)

/-- A rewriting touches its own key only, whose object it leaves as it was or rewrites whole. It has
rewritten the object when it succeeds, and it succeeds when no request fails. -/
structure Rewrites (key : K) (change : Change V β) (store : ObjectStore K O ε)
    (run : Except (Stop ε) β × ObjectStore K O ε) : Prop where
  others : ∀ other, other ≠ key → run.2.objects other = store.objects other
  own : run.2.objects key = store.objects key ∨
    ∃ answer, codec.rewritten key change (store.objects key) = some (run.2.objects key, answer)
  done : ∀ answer, run.1 = .ok answer →
    codec.rewritten key change (store.objects key) = some (run.2.objects key, answer)
  healthy : store.Healthy → run.2.Healthy ∧
    ((codec.rewritten key change (store.objects key)).isSome → ∃ answer, run.1 = .ok answer)

/-- Values rewritten one after another, each as if it were the only one. -/
structure RewritesEach (key : ι → K) (change : ι → Change V β) (items : List ι)
    (store : ObjectStore K O ε) (run : Except (Stop ε) (List β) × ObjectStore K O ε) : Prop where
  others : ∀ other, other ∉ items.map key → run.2.objects other = store.objects other
  own : ∀ item ∈ items, run.2.objects (key item) = store.objects (key item) ∨
    ∃ answer, codec.rewritten (key item) (change item) (store.objects (key item)) =
      some (run.2.objects (key item), answer)
  done : ∀ answers, run.1 = .ok answers → Forall₂ (fun item answer =>
    codec.rewritten (key item) (change item) (store.objects (key item)) =
      some (run.2.objects (key item), answer)) items answers
  healthy : store.Healthy → run.2.Healthy ∧
    ((∀ item ∈ items, (codec.rewritten (key item) (change item)
      (store.objects (key item))).isSome) → ∃ answers, run.1 = .ok answers)

variable [DecidableEq K]

/-- Puts a value under a key. -/
def put (key : K) (value : V) : Program K O ε Unit := fun store =>
  match codec.encode key value with
  | none => (.error .panic, store)
  | some object =>
    match store.fault with
    | some fault =>
      (.error (.failed fault.error),
        if fault.applied then store.withObject key object else store.asked)
    | none => (.ok (), store.withObject key object)

/-- Gets a value and puts what a writer makes of it. -/
def rewrite (key : K) (change : Change V β) : Program K O ε β := do
  let previous ← codec.get key
  match change previous with
  | (some value, answer) => do
    codec.put key value
    return answer
  | (none, answer) => return answer

/-- Rewrites a value for each item. -/
def rewriteEach (key : ι → K) (change : ι → Change V β) : List ι → Program K O ε (List β)
  | [] => return []
  | item :: items => do
    let answer ← codec.rewrite (key item) (change item)
    let answers ← rewriteEach key change items
    return answer :: answers

end Codec

/-! ## Running programs -/

theorem on_bind (program : Program K O ε α) (next : α → Program K O ε β)
    (store : ObjectStore K O ε) :
    Program.on (program >>= next) store =
      match program.on store with
      | (.ok answer, after) => (next answer).on after
      | (.error stop, after) => (.error stop, after) := by
  simp only [Program.on, ExceptT.run_bind, StateT.run_bind]
  rcases StateT.run (ExceptT.run program) store with ⟨_ | answer, after⟩ <;> rfl

theorem on_bind_pure (program : Program K O ε α) (f : α → β) (store : ObjectStore K O ε) :
    Program.on (program >>= fun answer => pure (f answer)) store =
      ((program.on store).1.map f, (program.on store).2) := by
  rw [on_bind]
  rcases program.on store with ⟨_ | answer, after⟩ <;> rfl

theorem exists_ok_of_map {outcome : Except (Stop ε) α} {f : α → β} {answer : β}
    (h : outcome.map f = .ok answer) : ∃ given, outcome = .ok given ∧ f given = answer := by
  cases outcome with
  | error stop => cases h
  | ok given =>
    cases h
    exact ⟨given, rfl, rfl⟩

variable {store : ObjectStore K O ε}

theorem Healthy.asked (h : store.Healthy) : store.asked.Healthy :=
  fun fault hfault => h fault (mem_of_mem_tail hfault)

theorem Healthy.fault_eq (h : store.Healthy) : store.fault = none := by
  unfold fault
  cases hfaults : store.faults with
  | nil => rfl
  | cons fault faults => exact h fault (hfaults ▸ mem_cons_self)

namespace Codec

variable {codec : Codec K V O ε} {key : K} {object : Option O} {value : V}

theorem read_some {object : O} (h : codec.decode key object = .ok value) :
    codec.read key (some object) = .ok (some value) := by
  rw [read, h]
  rfl

theorem read_eq_ok {found : Option V} (h : codec.read key object = .ok found) :
    object = none ∧ found = none ∨
      ∃ text value, object = some text ∧ found = some value ∧
        codec.decode key text = .ok value := by
  cases object with
  | none =>
    cases h
    exact .inl ⟨rfl, rfl⟩
  | some text =>
    rw [read] at h
    cases hdecode : codec.decode key text with
    | error error =>
      rw [hdecode] at h
      cases h
    | ok value =>
      rw [hdecode] at h
      cases h
      exact .inr ⟨text, value, rfl, rfl, hdecode⟩

/-! ## Rewriting one value -/

theorem rewritten_eq_some {change : Change V β} {after : Option O} {answer : β}
    (h : codec.rewritten key change object = some (after, answer)) :
    ∃ previous, codec.read key object = .ok previous ∧
      (change previous = (none, answer) ∧ after = object ∨
        ∃ value text, change previous = (some value, answer) ∧ codec.encode key value = some text ∧
          after = some text) := by
  unfold rewritten at h
  cases hread : codec.read key object with
  | error error =>
    rw [hread] at h
    cases h
  | ok previous =>
    rw [hread] at h
    refine ⟨previous, rfl, ?_⟩
    rcases hchange : change previous with ⟨_ | value, answer'⟩
    · simp only [hchange] at h
      cases h
      exact .inl ⟨rfl, rfl⟩
    · simp only [hchange] at h
      obtain ⟨text, hencode, heq⟩ := Option.map_eq_some_iff.mp h
      cases heq
      exact .inr ⟨value, text, rfl, hencode, rfl⟩

/-- A run that stops before its put: without a fault there was nothing to rewrite. -/
theorem rewrites_stopped {change : Change V β} (stop : Stop ε)
    (hnone : store.Healthy → codec.rewritten key change (store.objects key) = none) :
    codec.Rewrites key change store (.error stop, store.asked) := by
  refine ⟨fun _ _ => rfl, .inl rfl, nofun, fun h => ⟨h.asked, fun hsome => ?_⟩⟩
  rw [hnone h] at hsome
  cases hsome

variable [DecidableEq K]

/-- A put of a value with an object is carried out or changes nothing. It is carried out when it
succeeds, and it succeeds unless there is a fault. -/
theorem on_put {object : O} (hencode : codec.encode key value = some object)
    (store : ObjectStore K O ε) :
    (((codec.put key value).on store).2 = store.asked ∨
        ((codec.put key value).on store).2 = store.withObject key object) ∧
      (((codec.put key value).on store).1 = .ok () →
        ((codec.put key value).on store).2 = store.withObject key object) ∧
      (store.fault = none → ((codec.put key value).on store).1 = .ok ()) := by
  have hput : (codec.put key value).on store = match store.fault with
      | some fault => (.error (.failed fault.error),
        if fault.applied then store.withObject key object else store.asked)
      | none => (.ok (), store.withObject key object) := by
    show (match codec.encode key value with | none => _ | some _ => _) = _
    rw [hencode]
    rfl
  rw [hput]
  rcases store.fault with _ | ⟨error, applied⟩
  · exact ⟨.inr rfl, fun _ => rfl, fun _ => rfl⟩
  · refine ⟨?_, nofun, nofun⟩
    cases applied
    · exact .inl rfl
    · exact .inr rfl

theorem on_put_of_none (hencode : codec.encode key value = none) (store : ObjectStore K O ε) :
    (codec.put key value).on store = (.error .panic, store) := by
  show (match codec.encode key value with | none => _ | some _ => _) = _
  rw [hencode]

/-- A run that ends with the put of the rewritten value. -/
theorem rewrites_put {change : Change V β} {text : O} {answer : β}
    (hencode : codec.encode key value = some text)
    (hrewritten : codec.rewritten key change (store.objects key) = some (some text, answer)) :
    codec.Rewrites key change store
      (Program.on (codec.put key value >>= fun _ => pure answer) store.asked) := by
  have hown : codec.rewritten key change (store.objects key) =
      some ((store.asked.withObject key text).objects key, answer) := by
    rw [hrewritten]
    simp [withObject]
  have hput := on_put hencode store.asked
  rw [on_bind]
  generalize (codec.put key value).on store.asked = run at hput ⊢
  rcases run with ⟨stop | _, after⟩
  · -- a put that failed is carried out or not, and a healthy store has none
    obtain ⟨rfl | rfl, -, hok⟩ := hput
    · exact ⟨fun _ _ => rfl, .inl rfl, nofun, fun h => by cases hok h.asked.fault_eq⟩
    · exact ⟨fun other hne => Function.update_of_ne hne .., .inr ⟨answer, hown⟩, nofun,
        fun h => by cases hok h.asked.fault_eq⟩
  · obtain rfl := hput.2.1 rfl
    refine ⟨fun other hne => Function.update_of_ne hne .., .inr ⟨answer, hown⟩, ?_,
      fun h => ⟨h.asked.asked, fun _ => ⟨answer, rfl⟩⟩⟩
    rintro _ ⟨⟩
    exact hown

/-- Rewriting one value. -/
theorem rewrites_rewrite (codec : Codec K V O ε) (key : K) (change : Change V β)
    (store : ObjectStore K O ε) :
    codec.Rewrites key change store ((codec.rewrite key change).on store) := by
  have hget : (codec.get key).on store = match store.fault with
    | some fault => (.error (.failed fault.error), store.asked)
    | none => ((codec.read key (store.objects key)).mapError .failed, store.asked) := rfl
  unfold rewrite
  rw [on_bind, hget]
  cases hfault : store.fault with
  | some fault =>
    refine rewrites_stopped _ fun h => ?_
    rw [h.fault_eq] at hfault
    cases hfault
  | none =>
    cases hread : codec.read key (store.objects key) with
    | error error => exact rewrites_stopped _ fun _ => by rw [rewritten, hread]
    | ok previous =>
      have hrewritten : codec.rewritten key change (store.objects key) =
          match change previous with
          | (none, answer) => some (store.objects key, answer)
          | (some value, answer) =>
            (codec.encode key value).map fun text => (some text, answer) := by
        rw [rewritten, hread]
      rcases hchange : change previous with ⟨_ | value, answer⟩
      · -- the writer keeps the value, and nothing is put
        simp only [hchange] at hrewritten
        simp only [Except.mapError, hchange]
        refine ⟨fun _ _ => rfl, .inl rfl, ?_, fun h => ⟨h.asked, fun _ => ⟨answer, rfl⟩⟩⟩
        rintro _ ⟨⟩
        exact hrewritten
      · simp only [hchange] at hrewritten
        simp only [Except.mapError, hchange]
        cases hencode : codec.encode key value with
        | none =>
          rw [on_bind, on_put_of_none hencode]
          exact rewrites_stopped _ fun _ => by rw [hrewritten, hencode]; rfl
        | some text => exact rewrites_put hencode (by rw [hrewritten, hencode]; rfl)

/-! ## Rewriting the values of some keys -/

/-- Rewriting the values of distinct keys. -/
theorem rewritesEach_rewriteEach (codec : Codec K V O ε) {key : ι → K} (change : ι → Change V β)
    {items : List ι} (hnodup : (items.map key).Nodup) (store : ObjectStore K O ε) :
    codec.RewritesEach key change items store ((codec.rewriteEach key change items).on store) := by
  induction items generalizing store with
  | nil =>
    refine ⟨fun _ _ => rfl, nofun, ?_, fun h => ⟨h, fun _ => ⟨[], rfl⟩⟩⟩
    rintro _ ⟨⟩
    exact .nil
  | cons item items ih =>
    rw [map_cons, nodup_cons] at hnodup
    have hne : ∀ other ∈ items, key other ≠ key item := fun other hother heq =>
      hnodup.1 (heq ▸ mem_map_of_mem hother)
    have hfirst := codec.rewrites_rewrite (key item) (change item) store
    rw [rewriteEach, on_bind]
    generalize (codec.rewrite (key item) (change item)).on store = first at hfirst ⊢
    rcases first with ⟨stop | answer, after⟩
    · refine ⟨fun other hother => hfirst.others other fun heq => hother (heq ▸ mem_cons_self), ?_,
        nofun, fun h => ⟨(hfirst.healthy h).1, fun hall => ?_⟩⟩
      · exact forall_mem_cons.mpr
          ⟨hfirst.own, fun other hother => .inl (hfirst.others _ (hne other hother))⟩
      · obtain ⟨_, hok⟩ := (hfirst.healthy h).2 (hall item mem_cons_self)
        cases hok
    · -- the rest finds its objects as they were, and leaves the first one alone
      have hrest := ih hnodup.2 after
      have hsame : ∀ other ∈ items, after.objects (key other) = store.objects (key other) :=
        fun other hother => hfirst.others _ (hne other hother)
      have hkept := hrest.others (key item) hnodup.1
      show codec.RewritesEach key change (item :: items) store (Program.on
        (codec.rewriteEach key change items >>= fun answers => pure (answer :: answers)) after)
      rw [on_bind_pure]
      generalize (codec.rewriteEach key change items).on after = rest at hrest hkept ⊢
      refine ⟨?_, ?_, ?_, fun h => ?_⟩
      · intro other hother
        rw [map_cons, mem_cons, not_or] at hother
        exact (hrest.others other hother.2).trans (hfirst.others other hother.1)
      · refine forall_mem_cons.mpr ⟨hkept ▸ hfirst.own, fun other hother => ?_⟩
        rw [← hsame other hother]
        exact hrest.own other hother
      · intro answers hok
        obtain ⟨answers, hanswers, rfl⟩ := exists_ok_of_map hok
        have hrows := forall₂_iff_zip.mp (hrest.done answers hanswers)
        refine .cons (hkept ▸ hfirst.done answer rfl) (forall₂_iff_zip.mpr ⟨hrows.1, ?_⟩)
        intro other row hrow
        rw [← hsame other (of_mem_zip hrow).1]
        exact hrows.2 hrow
      · refine (hrest.healthy (hfirst.healthy h).1).imp_right fun hok hall => ?_
        obtain ⟨answers, hanswers⟩ := hok fun other hother => by
          rw [hsame other hother]
          exact hall other (mem_cons_of_mem _ hother)
        exact ⟨_, congrArg (Except.map _) hanswers⟩

end Codec

/-! ## The keys that a writer touches -/

/-- A writer touches the keys of its own only, and each of them whole or not at all. -/
structure Touches (mine : K → Prop) (holds : K → Option O → Option O → Prop)
    (before after : K → Option O) : Prop where
  others : ∀ key, ¬ mine key → after key = before key
  own : ∀ key, mine key → after key = before key ∨ holds key (before key) (after key)

/-- Each member of a list is related to one of the other list. -/
theorem exists_of_mem_forall₂ {R : ι → β → Prop} {items : List ι} {answers : List β}
    (h : Forall₂ R items answers) {item : ι} (hitem : item ∈ items) :
    ∃ answer ∈ answers, R item answer := by
  induction h with
  | nil => cases hitem
  | cons hhead _ ih =>
    rcases mem_cons.mp hitem with rfl | hitem
    · exact ⟨_, mem_cons_self, hhead⟩
    · obtain ⟨answer, hanswer, hrelated⟩ := ih hitem
      exact ⟨answer, mem_cons_of_mem _ hanswer, hrelated⟩

namespace Codec.RewritesEach

variable {codec : Codec K V O ε} {key : ι → K} {change : ι → Change V β} {items : List ι}
  {run : Except (Stop ε) (List β) × ObjectStore K O ε} {mine : K → Prop}
  {holds : K → Option O → Option O → Prop}

theorem touches (h : codec.RewritesEach key change items store run)
    (hmine : ∀ other, other ∈ items.map key ↔ mine other)
    (hholds : ∀ item ∈ items, ∀ after answer,
      codec.rewritten (key item) (change item) (store.objects (key item)) = some (after, answer) →
        holds (key item) (store.objects (key item)) after) :
    Touches mine holds store.objects run.2.objects where
  others other hother := h.others other fun hmem => hother ((hmine other).mp hmem)
  own other hother := by
    obtain ⟨item, hitem, rfl⟩ := mem_map.mp ((hmine other).mpr hother)
    exact (h.own item hitem).imp_right fun ⟨answer, hanswer⟩ => hholds item hitem _ answer hanswer

theorem holds_of_ok (h : codec.RewritesEach key change items store run)
    (holds : K → Option O → Option O → Prop) (hmine : ∀ other, other ∈ items.map key ↔ mine other)
    (hholds : ∀ item ∈ items, ∀ after answer,
      codec.rewritten (key item) (change item) (store.objects (key item)) = some (after, answer) →
        holds (key item) (store.objects (key item)) after)
    {answers : List β} (hok : run.1 = .ok answers) {other : K} (hother : mine other) :
    holds other (store.objects other) (run.2.objects other) := by
  obtain ⟨item, hitem, rfl⟩ := mem_map.mp ((hmine other).mpr hother)
  obtain ⟨answer, -, hanswer⟩ := exists_of_mem_forall₂ (h.done answers hok) hitem
  exact hholds item hitem _ answer hanswer

end Codec.RewritesEach

end ObjectStore
