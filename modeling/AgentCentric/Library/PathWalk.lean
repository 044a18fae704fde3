import Mathlib.Data.List.Basic

namespace AgentCentric.PathWalk

abbrev Name := List Char
abbrev Path := List Name

def dotdot : Name := ['.','.']

def parts (text : List Char) : Path :=
  (text.splitOn '/').filter fun name => name ≠ [] ∧ name ≠ ['.']

def walk : Path → Path → Path
  | here, [] => here
  | here, name :: rest =>
    if name = dotdot then walk here.dropLast rest else walk (here ++ [name]) rest

/-- The names never lead out of a directory, `depth` names below which they start, and end
below it. -/
def staysBelow : Nat → Path → Bool
  | depth, [] => 0 < depth
  | depth, name :: rest =>
    if name = dotdot then 0 < depth && staysBelow (depth - 1) rest else staysBelow (depth + 1) rest

theorem parts_append (text rest : List Char) :
    parts (text ++ '/' :: rest) = parts text ++ parts rest := by
  rw [parts,List.splitOn_append_cons_self,List.filter_append]
  rfl

theorem walk_append (here names rest : Path) :
    walk here (names ++ rest) = walk (walk here names) rest := by
  induction names generalizing here with
  | nil => rfl
  | cons name names ih =>
    rw [List.cons_append,walk,walk]
    split
    · exact ih _
    · exact ih _

theorem walk_staysBelow {base below names : Path} (h : staysBelow below.length names = true) :
    ∃ rest, rest ≠ [] ∧ walk (base ++ below) names = base ++ rest := by
  induction names generalizing below with
  | nil =>
    refine ⟨below,?_,rfl⟩
    rw [staysBelow,decide_eq_true_eq] at h
    exact List.length_pos_iff.mp h
  | cons name names ih =>
    rw [staysBelow] at h
    rw [walk]
    split at h
    · rename_i hdots
      rw [Bool.and_eq_true,decide_eq_true_eq] at h
      have hne : below ≠ [] := List.length_pos_iff.mp h.1
      rw [if_pos hdots,List.dropLast_append_of_ne_nil hne]
      apply ih
      rw [List.length_dropLast]
      exact h.2
    · rename_i hdots
      rw [if_neg hdots,List.append_assoc]
      apply ih
      rw [List.length_append]
      exact h

end AgentCentric.PathWalk
