import Mathlib.Order.Basic
import Mathlib.Data.List.Basic
import Ursula.Lib.Word64

/-!
# The left mark of a replica

A voter that a membership step dropped is no longer replicated to, so only its group can tell it
that it left. A replica asks, and keeps a mark: an answer that it is not a voter sets the mark, an
append of a leader at least as new clears it. Answers arrive in any order, so the mark remembers the
vote of the newest answer, the highest vote of an append and when it last arrived.

## Main definitions

* `LeftMark`: the mark, with `ask`, `appended` and `answered`
* `LeftMark.Reaches`: a mark and the history of calls that led to it

## Main results

* `isLeft_iff_current_answer`: the mark is set exactly while an answer is current
* `counter_end_marks_left`: past the end of the append counter it is not
-/

namespace Ursula.Control

open Word64 List

/-- How a leader classifies a node. -/
inductive MembershipAnswer
  | voter
  | learner
  | notMember
deriving DecidableEq

/-- Whether a replica's group answered that its node left. -/
structure LeftMark (V : Type) where
  /-- The vote of the answer that set the mark. -/
  left : Option V
  /-- How many appends arrived. -/
  appends : ℕ
  /-- The highest vote of an append, and the count of appends when one last reached it. -/
  highest : Option (V × ℕ)
deriving DecidableEq

/-- When a question was asked, in appends. -/
structure Asked where
  appends : ℕ
deriving DecidableEq

namespace LeftMark

variable {V : Type} [LinearOrder V]

/-- The mark of a new replica. -/
def default : LeftMark V := ⟨none, 0, none⟩

/-- Whether the group marked the node left. -/
def isLeft (mark : LeftMark V) : Bool := mark.left.isSome

/-- A question goes out now. -/
def ask (mark : LeftMark V) : Asked := ⟨mark.appends⟩

/-- An append with the leader's vote: it clears the mark when the vote is at least the mark's. -/
def appended (mark : LeftMark V) (vote : V) : LeftMark V where
  left := if ∃ left ∈ mark.left, left ≤ vote then none else mark.left
  appends := satAdd mark.appends 1
  highest :=
    if ∃ highest ∈ mark.highest, vote < highest.1 then mark.highest
    else some (vote, satAdd mark.appends 1)

/-- Whether an append with at least this vote arrived after the question. -/
def followed (mark : LeftMark V) (asked : Asked) (vote : V) : Prop :=
  ∃ highest ∈ mark.highest, asked.appends < highest.2 ∧ vote ≤ highest.1

instance (mark : LeftMark V) (asked : Asked) (vote : V) : Decidable (mark.followed asked vote) :=
  inferInstanceAs (Decidable (∃ highest ∈ mark.highest, _))

/-- A live leader's answer, with its vote, to a question. -/
def answered (mark : LeftMark V) (asked : Asked) (answer : MembershipAnswer)
    (vote : V) : LeftMark V :=
  match answer with
  | .voter => mark
  | .learner | .notMember =>
    if mark.followed asked vote then mark
    else if ∀ left ∈ mark.left, left ≤ vote then { mark with left := some vote }
    else mark

end LeftMark

/-! ## Histories -/

/-- An answer that arrived: when its question was asked, in appends, and what it said. -/
structure AnswerRecord (V : Type) where
  position : ℕ
  answer : MembershipAnswer
  vote : V

/-- What happened to a mark: the votes of the appends, the first one first, the questions with the
number of appends before each, and the answers that arrived. -/
structure LeftHistory (V : Type) where
  appends : List V
  questions : List (Asked × ℕ)
  answers : List (AnswerRecord V)

variable {V : Type} [LinearOrder V]

/-- A mark and the history that led to it. By quorum intersection an answer to a question that was
asked after an append carries at least the append's vote. -/
inductive LeftMark.Reaches : LeftMark V → LeftHistory V → Prop
  | new : Reaches .default ⟨[], [], []⟩
  | ask {mark history} (h : Reaches mark history) :
      Reaches mark
        { history with questions := (mark.ask, history.appends.length) :: history.questions }
  | appended {mark history} (h : Reaches mark history) (vote : V) :
      Reaches (mark.appended vote) { history with appends := history.appends ++ [vote] }
  | answered {mark history} (h : Reaches mark history) {asked : Asked} {position : ℕ}
      (hasked : (asked, position) ∈ history.questions) (answer : MembershipAnswer) (vote : V)
      (hquorum : ∀ earlier ∈ history.appends.take position, earlier ≤ vote) :
      Reaches (mark.answered asked answer vote)
        { history with answers := ⟨position, answer, vote⟩ :: history.answers }

/-- An append with at least the answer's vote arrived after its question. -/
def AnswerRecord.Outdated (answer : AnswerRecord V) (appends : List V) : Prop :=
  ∃ later ∈ appends.drop answer.position, answer.vote ≤ later

/-- The answer says that the node is no voter, and nothing as new has arrived since its question. -/
def AnswerRecord.Current (answer : AnswerRecord V) (appends : List V) : Prop :=
  answer.answer ≠ .voter ∧ ¬ answer.Outdated appends

/-! ## What a mark keeps of its history -/

/-- The highest vote of the appends and the number of appends when one last reached it. -/
def HighestOf (appends : List V) : Option (V × ℕ) → Prop
  | none => appends = []
  | some (highest, position) => 0 < position ∧ appends[position - 1]? = some highest ∧
      (∀ vote ∈ appends, vote ≤ highest) ∧ ∀ later ∈ appends.drop position, later < highest

/-- What a mark stands for. -/
structure LeftMark.Keeps (mark : LeftMark V) (history : LeftHistory V) : Prop where
  appends : mark.appends = history.appends.length
  questions : ∀ question ∈ history.questions, question.1.appends = question.2 ∧
    question.2 ≤ history.appends.length
  highest : HighestOf history.appends mark.highest
  sound : ∀ left, mark.left = some left →
    ∃ answer ∈ history.answers, answer.vote = left ∧ answer.Current history.appends
  complete : ∀ answer ∈ history.answers, answer.Current history.appends →
    ∃ left, mark.left = some left ∧ answer.vote ≤ left

section

variable {mark : LeftMark V} {history : LeftHistory V} {vote : V}

/-- The highest append decides whether an answer is outdated when it arrives. -/
theorem followed_iff (h : HighestOf history.appends mark.highest) {asked : Asked}
    {position : ℕ} (hasked : asked.appends = position) {answer : MembershipAnswer}
    (hquorum : ∀ earlier ∈ history.appends.take position, earlier ≤ vote) :
    mark.followed asked vote ↔ AnswerRecord.Outdated ⟨position, answer, vote⟩ history.appends := by
  unfold LeftMark.followed AnswerRecord.Outdated
  subst hasked
  constructor
  · rintro ⟨⟨highest, reached⟩, hmem, hafter, hvote⟩
    rw [Option.mem_def.mp hmem] at h
    obtain ⟨hpos, hget, -, -⟩ := h
    have hindex : asked.appends + (reached - 1 - asked.appends) = reached - 1 := by
      omega
    refine ⟨highest, mem_of_getElem? (i := reached - 1 - asked.appends) ?_, hvote⟩
    rw [getElem?_drop, hindex, hget]
  · rintro ⟨later, hlater, hvote⟩
    cases hhighest : mark.highest with
    | none =>
      rw [hhighest] at h
      rw [show history.appends = [] from h] at hlater
      cases drop_nil ▸ hlater
    | some pair =>
      obtain ⟨highest, reached⟩ := pair
      rw [hhighest] at h
      obtain ⟨hpos, hget, hmax, hdrop⟩ := h
      have hle := hvote.trans (hmax later (mem_of_mem_drop hlater))
      refine ⟨(highest, reached), rfl, Nat.lt_of_not_le fun hbefore => ?_, hle⟩
      -- otherwise the highest append came before the question, and all later ones are below it
      have hearlier : highest ∈ history.appends.take asked.appends := by
        refine mem_of_getElem? (i := reached - 1) ?_
        rw [getElem?_take_of_lt (by omega)]
        exact hget
      have hbelow : later < highest := by
        refine hdrop later ?_
        have hsub := drop_subset_drop_left history.appends hbefore
        exact hsub hlater
      exact absurd (hvote.trans_lt hbelow) (not_lt.mpr (hquorum highest hearlier))

theorem AnswerRecord.outdated_append {answer : AnswerRecord V} {appends : List V}
    (h : answer.position ≤ appends.length) :
    answer.Outdated (appends ++ [vote]) ↔ answer.Outdated appends ∨ answer.vote ≤ vote := by
  unfold AnswerRecord.Outdated
  rw [drop_append_of_le_length h]
  simp only [mem_append, mem_singleton, or_and_right, exists_or, exists_eq_left]

theorem HighestOf.append {appends : List V} {highest : Option (V × ℕ)}
    (h : HighestOf appends highest) :
    HighestOf (appends ++ [vote]) (if ∃ pair ∈ highest, vote < pair.1 then highest
      else some (vote, appends.length + 1)) := by
  split_ifs with hlower
  · obtain ⟨⟨vote', reached⟩, hmem, hlower⟩ := hlower
    obtain rfl := Option.mem_def.mp hmem
    obtain ⟨hpos, hget, hmax, hdrop⟩ := h
    have hlength : reached ≤ appends.length := by
      have := (List.getElem?_eq_some_iff.mp hget).1
      omega
    refine ⟨hpos, ?_, ?_, ?_⟩
    · rw [getElem?_append_left (by omega)]
      exact hget
    · exact forall_mem_append.mpr ⟨hmax, fun _ hv => mem_singleton.mp hv ▸ hlower.le⟩
    · rw [drop_append_of_le_length hlength]
      exact forall_mem_append.mpr ⟨hdrop, fun _ hv => mem_singleton.mp hv ▸ hlower⟩
  · refine ⟨Nat.succ_pos _, ?_, ?_, ?_⟩
    · rw [Nat.add_sub_cancel, getElem?_append_right (Nat.le_refl _), Nat.sub_self]
      rfl
    · refine forall_mem_append.mpr ⟨fun earlier hearlier => ?_,
        fun _ hv => (mem_singleton.mp hv).le⟩
      cases highest with
      | none =>
        rw [show appends = [] from h] at hearlier
        cases hearlier
      | some pair =>
        have hraised : ¬ vote < pair.1 := fun hlt => hlower ⟨pair, rfl, hlt⟩
        exact (h.2.2.1 earlier hearlier).trans (not_lt.mp hraised)
    · intro later hlater
      rw [drop_of_length_le (by simp)] at hlater
      cases hlater

theorem LeftMark.Reaches.position_le (h : mark.Reaches history) :
    (∀ question ∈ history.questions, question.2 ≤ history.appends.length) ∧
      ∀ answer ∈ history.answers, answer.position ≤ history.appends.length := by
  induction h with
  | new => exact ⟨by simp, by simp⟩
  | ask _ ih => exact ⟨forall_mem_cons.mpr ⟨Nat.le_refl _, ih.1⟩, ih.2⟩
  | appended _ vote ih =>
    simp only [length_append, length_singleton]
    exact ⟨fun question hquestion => Nat.le_succ_of_le (ih.1 question hquestion),
      fun answer hanswer => Nat.le_succ_of_le (ih.2 answer hanswer)⟩
  | answered _ hasked answer vote _ ih =>
    exact ⟨ih.1, forall_mem_cons.mpr ⟨ih.1 _ hasked, ih.2⟩⟩

/-- A mark keeps what it stands for through an append. -/
theorem LeftMark.Keeps.appended (h : mark.Keeps history)
    (hpositions : ∀ answer ∈ history.answers, answer.position ≤ history.appends.length)
    (hlength : history.appends.length < maxValue) :
    (mark.appended vote).Keeps { history with appends := history.appends ++ [vote] } := by
  have hcount : satAdd mark.appends 1 = history.appends.length + 1 := by
    rw [h.appends, satAdd]
    omega
  refine ⟨?_, ?_, ?_, ?_, ?_⟩
  · rw [LeftMark.appended, hcount, length_append, length_singleton]
  · intro question hquestion
    obtain ⟨hposition, hle⟩ := h.questions question hquestion
    exact ⟨hposition, by simp only [length_append, length_singleton]; omega⟩
  · rw [LeftMark.appended, hcount]
    exact h.highest.append
  · intro left hleft
    unfold LeftMark.appended at hleft
    simp only at hleft
    split_ifs at hleft with hclears
    obtain ⟨answer, hmem, rfl, hvoter, hcurrent⟩ := h.sound left hleft
    refine ⟨answer, hmem, rfl, hvoter, ?_⟩
    rw [AnswerRecord.outdated_append (hpositions answer hmem), not_or]
    exact ⟨hcurrent, fun hle => hclears ⟨_, hleft, hle⟩⟩
  · intro answer hmem hcurrent
    rw [AnswerRecord.Current, AnswerRecord.outdated_append (hpositions answer hmem),
      not_or] at hcurrent
    obtain ⟨left, hleft, hle⟩ := h.complete answer hmem ⟨hcurrent.1, hcurrent.2.1⟩
    refine ⟨left, ?_, hle⟩
    unfold LeftMark.appended
    rw [if_neg, hleft]
    -- an append that cleared the mark would outdate the answer
    rintro ⟨other, hother, hclears⟩
    rw [hleft, Option.mem_some_iff] at hother
    subst hother
    exact hcurrent.2.2 (hle.trans hclears)

/-- An answer sets the mark, or it says voter, is outdated or older than the mark's answer. -/
theorem LeftMark.answered_cases (mark : LeftMark V) (asked : Asked) (answer : MembershipAnswer)
    (vote : V) :
    (mark.answered asked answer vote = { mark with left := some vote } ∧ answer ≠ .voter ∧
      ¬ mark.followed asked vote ∧ ∀ left ∈ mark.left, left ≤ vote) ∨
    (mark.answered asked answer vote = mark ∧ (answer = .voter ∨ mark.followed asked vote ∨
      ∃ left ∈ mark.left, vote ≤ left)) := by
  by_cases hvoter : answer = .voter
  · subst hvoter
    exact .inr ⟨rfl, .inl rfl⟩
  have heq : mark.answered asked answer vote = if mark.followed asked vote then mark
      else if ∀ left ∈ mark.left, left ≤ vote then { mark with left := some vote } else mark := by
    cases answer with
    | voter => exact absurd rfl hvoter
    | learner => rfl
    | notMember => rfl
  rw [heq]
  by_cases hfollowed : mark.followed asked vote
  · exact .inr ⟨if_pos hfollowed, .inr (.inl hfollowed)⟩
  rw [if_neg hfollowed]
  by_cases hnewer : ∀ left ∈ mark.left, left ≤ vote
  · exact .inl ⟨if_pos hnewer, hvoter, hfollowed, hnewer⟩
  refine .inr ⟨if_neg hnewer, .inr (.inr ?_)⟩
  obtain ⟨left, hnewer⟩ := not_forall.mp hnewer
  obtain ⟨hleft, hnot⟩ := Classical.not_imp.mp hnewer
  exact ⟨left, hleft, (not_le.mp hnot).le⟩

/-- A mark keeps what it stands for through an answer. -/
theorem LeftMark.Keeps.answered (h : mark.Keeps history) {asked : Asked} {position : ℕ}
    (hasked : (asked, position) ∈ history.questions) (answer : MembershipAnswer)
    (hquorum : ∀ earlier ∈ history.appends.take position, earlier ≤ vote) :
    (mark.answered asked answer vote).Keeps
      { history with answers := ⟨position, answer, vote⟩ :: history.answers } := by
  have hfollowed : mark.followed asked vote ↔
      AnswerRecord.Outdated ⟨position, answer, vote⟩ history.appends :=
    followed_iff h.highest (h.questions _ hasked).1 hquorum
  obtain ⟨heq, hvoter, hfresh, hnewest⟩ | ⟨heq, hwhy⟩ := mark.answered_cases asked answer vote
  · rw [heq]
    refine ⟨h.appends, h.questions, h.highest, ?_, ?_⟩
    · intro left hleft
      refine ⟨_, mem_cons_self, Option.some.inj hleft, hvoter, fun houtdated => ?_⟩
      exact hfresh (hfollowed.mpr houtdated)
    · refine forall_mem_cons.mpr ⟨fun _ => ⟨vote, rfl, le_rfl⟩, fun other hother hcurrent => ?_⟩
      obtain ⟨left, hleft, hle⟩ := h.complete other hother hcurrent
      exact ⟨vote, rfl, hle.trans (hnewest left hleft)⟩
  · rw [heq]
    refine ⟨h.appends, h.questions, h.highest, ?_, ?_⟩
    · intro left hleft
      obtain ⟨other, hother, hfields⟩ := h.sound left hleft
      exact ⟨other, mem_cons_of_mem _ hother, hfields⟩
    · refine forall_mem_cons.mpr ⟨fun hcurrent => ?_, h.complete⟩
      rcases hwhy with hvoter | hold | ⟨left, hleft, hle⟩
      · exact absurd hvoter hcurrent.1
      · exact absurd (hfollowed.mp hold) hcurrent.2
      · exact ⟨left, hleft, hle⟩

/-- Every mark keeps what it stands for while its counter counts. -/
theorem LeftMark.Reaches.keeps (h : mark.Reaches history)
    (hlength : history.appends.length ≤ maxValue) : mark.Keeps history := by
  induction h with
  | new =>
    exact ⟨rfl, by simp, rfl, fun _ hleft => (by cases hleft), by simp⟩
  | ask _ ih =>
    have hkeeps := ih hlength
    refine ⟨hkeeps.appends, forall_mem_cons.mpr ⟨⟨hkeeps.appends, Nat.le_refl _⟩,
      hkeeps.questions⟩, hkeeps.highest, hkeeps.sound, hkeeps.complete⟩
  | appended h vote ih =>
    rw [length_append, length_singleton] at hlength
    exact (ih (by omega)).appended h.position_le.2 hlength
  | answered _ hasked answer vote hquorum ih => exact (ih hlength).answered hasked answer hquorum

end

/-- **The left mark reflects the newest answer.** Whatever questions, appends and answers led to a
mark, in any order and with any number of questions outstanding, as long as the append counter has
not reached its end: the mark is set exactly when some answer that the node is no voter is current,
that is, when no append with at least its vote arrived after its question. -/
theorem isLeft_iff_current_answer (mark : LeftMark V) (history : LeftHistory V)
    (h : mark.Reaches history) (hlength : history.appends.length ≤ maxValue) :
    mark.isLeft = true ↔ ∃ answer ∈ history.answers, answer.Current history.appends := by
  have hkeeps := h.keeps hlength
  rw [LeftMark.isLeft, Option.isSome_iff_exists]
  constructor
  · rintro ⟨left, hleft⟩
    obtain ⟨answer, hmem, -, hcurrent⟩ := hkeeps.sound left hleft
    exact ⟨answer, hmem, hcurrent⟩
  · rintro ⟨answer, hmem, hcurrent⟩
    obtain ⟨left, hleft, -⟩ := hkeeps.complete answer hmem hcurrent
    exact ⟨left, hleft⟩

/-- A node that asked after an append of a leader and was answered by it is marked left. -/
theorem isLeft_sample :
    ∃ (mark : LeftMark ℕ) (history : LeftHistory ℕ), mark.Reaches history ∧ mark.isLeft = true := by
  have hasked := (LeftMark.Reaches.new.appended (1 : ℕ)).ask
  have hanswered := hasked.answered mem_cons_self .notMember 1 (by decide)
  exact ⟨_, _, hanswered, (isLeft_iff_current_answer _ _ hanswered (by decide)).mpr
    ⟨_, mem_cons_self, by decide, by rintro ⟨_, hmem, -⟩; cases hmem⟩⟩

/-- A mark at the end of its counter, after an append with vote 0 for each number below it. -/
theorem reaches_counter_end (count : ℕ) (hcount : count ≤ maxValue) (hpos : 0 < count) :
    (⟨none, count, some (0, count)⟩ : LeftMark ℕ).Reaches ⟨replicate count 0, [], []⟩ := by
  induction count with
  | zero => exact absurd hpos (by decide)
  | succ count ih =>
    have hsat : satAdd count 1 = count + 1 := by
      unfold satAdd
      omega
    rcases Nat.eq_zero_or_pos count with rfl | hpos'
    · exact LeftMark.Reaches.new.appended 0
    · have happended := (ih (by omega) hpos').appended 0
      rw [replicate_succ']
      simpa [LeftMark.appended, hsat] using happended

/-- Past the end of the append counter an append no longer counts as later than the question: the
answer sets the mark although an append with its vote arrived after its question. -/
theorem counter_end_marks_left :
    ∃ (mark : LeftMark ℕ) (history : LeftHistory ℕ), mark.Reaches history ∧ mark.isLeft = true ∧
      ∀ answer ∈ history.answers, answer.Outdated history.appends := by
  have hend := reaches_counter_end maxValue (Nat.le_refl _) (by decide)
  have happended := hend.ask.appended (1 : ℕ)
  have hanswered := happended.answered mem_cons_self .notMember 1 (by
    intro earlier hearlier
    rw [take_append_of_le_length (by simp)] at hearlier
    rw [eq_of_mem_replicate (mem_of_mem_take hearlier)]
    exact Nat.zero_le 1)
  refine ⟨_, _, hanswered, ?_, ?_⟩
  · rfl
  · refine forall_mem_cons.mpr ⟨⟨1, ?_, Nat.le_refl _⟩, by simp⟩
    simp

end Ursula.Control
