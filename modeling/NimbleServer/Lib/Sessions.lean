import Mathlib

/-!
# `NimbleServer.Lib.Sessions`: streams made of sessions

A stream says at each position what it has to report, or `none`. A session is opened by one
symbol and closed by another, with only inner symbols between them and no gap. Before it is
opened there can be any number of positions without a report.

`SessionStream` builds such a stream from the left, one position at a time, and keeps track
of whether a session is open. It is what an invariant of a run can carry.
`SessionStream.exists_sessions` says what the stream is as a whole: the beginning of a
sequence of complete sessions.
-/

set_option autoImplicit false

namespace NimbleServer.Lib

variable {α : Type}

/-- A session and the gap before it. -/
structure Session (inner : α → Prop) where
  gap : Nat
  body : List α
  body_inner : ∀ a ∈ body, inner a

/-- All positions of a session. -/
def Session.positions (first last : α) {inner : α → Prop} (self : Session inner) :
    List (Option α) :=
  List.replicate self.gap none ++ some first :: (self.body.map some ++ [some last])

/-- A stream of sessions, and whether the last one is open. -/
inductive SessionStream (first last : α) (inner : α → Prop) : Bool → List (Option α) → Prop
  | nil : SessionStream first last inner false []
  | gap {l : List (Option α)} : SessionStream first last inner false l →
      SessionStream first last inner false (l ++ [none])
  | opened {l : List (Option α)} : SessionStream first last inner false l →
      SessionStream first last inner true (l ++ [some first])
  | within {l : List (Option α)} {a : α} (ha : inner a) : SessionStream first last inner true l →
      SessionStream first last inner true (l ++ [some a])
  | closed {l : List (Option α)} : SessionStream first last inner true l →
      SessionStream first last inner false (l ++ [some last])

namespace SessionStream

variable {first last : α} {inner : α → Prop}

/-- The complete sessions, and what comes after them. Induction on the stream. -/
theorem decompose {isOpen : Bool} {l : List (Option α)}
    (h : SessionStream first last inner isOpen l) :
    ∃ (sessions : List (Session inner)) (gap : Nat) (body : List α),
      (∀ a ∈ body, inner a) ∧
        l = sessions.flatMap (Session.positions first last) ++ (List.replicate gap none ++
          if isOpen then some first :: body.map some else []) := by
  induction h with
  | nil => exact ⟨[], 0, [], List.forall_mem_nil _, rfl⟩
  | gap h ih =>
    obtain ⟨sessions, gap, -, -, rfl⟩ := ih
    refine ⟨sessions, gap + 1, [], List.forall_mem_nil _, ?_⟩
    simp [List.replicate_succ']
  | opened h ih =>
    obtain ⟨sessions, gap, -, -, rfl⟩ := ih
    refine ⟨sessions, gap, [], List.forall_mem_nil _, ?_⟩
    simp
  -- The open session gets one element more.
  | within ha h ih =>
    rename_i a
    obtain ⟨sessions, gap, body, hbody, rfl⟩ := ih
    refine ⟨sessions, gap, body ++ [a], ?_, ?_⟩
    · intro b hb
      rcases List.mem_append.mp hb with hb | hb
      · exact hbody b hb
      · rw [List.mem_singleton.mp hb]
        exact ha
    · simp
  -- The open session is complete, and the next one has not begun.
  | closed h ih =>
    obtain ⟨sessions, gap, body, hbody, rfl⟩ := ih
    refine ⟨sessions ++ [⟨gap, body, hbody⟩], 0, [], List.forall_mem_nil _, ?_⟩
    simp [Session.positions]

/-- The stream is the beginning of a sequence of sessions: one that is still open could be
closed now. -/
theorem exists_sessions {isOpen : Bool} {l : List (Option α)}
    (h : SessionStream first last inner isOpen l) :
    ∃ sessions : List (Session inner),
      l <+: sessions.flatMap (Session.positions first last) := by
  obtain ⟨sessions, gap, body, hbody, rfl⟩ := h.decompose
  -- What comes after the complete sessions is the beginning of one more.
  refine ⟨sessions ++ [⟨gap, body, hbody⟩], ?_⟩
  rw [List.flatMap_append, List.prefix_append_right_inj, List.flatMap_singleton,
    Session.positions, List.prefix_append_right_inj]
  cases isOpen with
  | false => exact List.nil_prefix
  | true => exact ⟨[some last], rfl⟩

end SessionStream

end NimbleServer.Lib
