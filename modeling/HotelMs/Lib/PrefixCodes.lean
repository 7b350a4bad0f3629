import Mathlib.Data.List.Basic
import Mathlib.Data.List.Infix

/-!
# Decoding with a table of prefixes

Every entry of the table has a code word. The longest words are tried first, and
of the entries with one word the first of the table.
-/

namespace PrefixCodes

section

variable {α β : Type*} [DecidableEq β] (code : α → List β) (table : List α)

def longestFirst : List α :=
  table.mergeSort fun a b => decide ((code b).length ≤ (code a).length)

def decode (word : List β) : Option (α × List β) :=
  ((longestFirst code table).find? fun a => (code a).isPrefixOf word).map fun a =>
    (a, word.drop (code a).length)

/-- The first entry with the code word of `a`. -/
def leader (a : α) : Option α := table.find? fun b => code b = code a

def PrefixFree : Prop := ∀ a ∈ table, ∀ b ∈ table, code a <+: code b → code a = code b

instance : Decidable (PrefixFree code table) :=
  inferInstanceAs (Decidable (∀ a ∈ table, ∀ b ∈ table, code a <+: code b → code a = code b))

variable {code table}

/-- A stable sort keeps the order of what has one code word. -/
theorem find?_longestFirst (a : α) :
    (longestFirst code table).find? (fun b => code b = code a) = leader code table a := by
  have htrans : ∀ x y z : α, decide ((code y).length ≤ (code x).length) = true →
      decide ((code z).length ≤ (code y).length) = true →
      decide ((code z).length ≤ (code x).length) = true := by
    intro x y z hxy hyz
    exact decide_eq_true ((of_decide_eq_true hyz).trans (of_decide_eq_true hxy))
  have htotal : ∀ x y : α, (decide ((code y).length ≤ (code x).length) ||
      decide ((code x).length ≤ (code y).length)) = true := by
    intro x y
    rw [Bool.or_eq_true, decide_eq_true_iff, decide_eq_true_iff]
    exact le_total _ _
  have hsub : (table.filter fun b => code b = code a).Sublist (longestFirst code table) := by
    refine List.sublist_mergeSort htrans htotal ?_ List.filter_sublist
    refine List.pairwise_of_forall_mem_list fun x hx y hy => ?_
    have hx' : code x = code a := of_decide_eq_true (List.mem_filter.mp hx).2
    have hy' : code y = code a := of_decide_eq_true (List.mem_filter.mp hy).2
    rw [hx', hy', decide_eq_true_iff]
  have hfilter := hsub.filter fun b => decide (code b = code a)
  rw [List.filter_filter] at hfilter
  simp only [Bool.and_self] at hfilter
  have hperm := (List.mergeSort_perm table fun x y =>
    decide ((code y).length ≤ (code x).length)).filter fun b => decide (code b = code a)
  have heq := hfilter.eq_of_length hperm.length_eq.symm
  unfold leader
  rw [← List.head?_filter, ← List.head?_filter, heq]

/-- Two words that begin the same text are comparable. -/
theorem PrefixFree.isPrefixOf_append (h : PrefixFree code table) {a b : α} (ha : a ∈ table)
    (hb : b ∈ table) (rest : List β) :
    (code b).isPrefixOf (code a ++ rest) = decide (code b = code a) := by
  rw [Bool.eq_iff_iff, List.isPrefixOf_iff_prefix, decide_eq_true_iff]
  constructor
  · intro hpre
    have hpre' := List.prefix_append (code a) rest
    rcases List.prefix_or_prefix_of_prefix hpre hpre' with hba | hab
    · exact h b hb a ha hba
    · exact (h a ha b hb hab).symm
  · intro heq
    rw [heq]
    exact List.prefix_append _ _

theorem PrefixFree.decode_append (h : PrefixFree code table) {a : α} (ha : a ∈ table)
    (rest : List β) :
    decode code table (code a ++ rest) = (leader code table a).map fun b => (b, rest) := by
  have hfind : (longestFirst code table).find? (fun b => (code b).isPrefixOf (code a ++ rest)) =
      leader code table a := by
    rw [← find?_longestFirst, ← List.head?_filter, ← List.head?_filter]
    congr 1
    refine List.filter_congr fun b hb => ?_
    exact h.isPrefixOf_append ha (List.mem_mergeSort.mp hb) rest
  unfold decode
  rw [hfind]
  cases hl : leader code table a with
  | none => rfl
  | some b =>
    have hfound := List.find?_some hl
    have hcode : code b = code a := of_decide_eq_true hfound
    rw [Option.map_some, Option.map_some, hcode, List.drop_left]

theorem mem_of_decode {word rest : List β} {a : α}
    (h : decode code table word = some (a, rest)) : a ∈ table := by
  unfold decode at h
  obtain ⟨b, hb, heq⟩ := Option.map_eq_some_iff.mp h
  obtain ⟨rfl, _⟩ := Prod.mk.inj heq
  exact List.mem_mergeSort.mp (List.mem_of_find?_eq_some hb)

variable (code) in
theorem leader_of_mem {a : α} (ha : a ∈ table) :
    ∃ b ∈ table, leader code table a = some b ∧ code b = code a := by
  cases hl : leader code table a with
  | none =>
    have hnone := List.find?_eq_none.mp hl a ha
    exact absurd (decide_eq_true rfl) hnone
  | some b =>
    have hcode := List.find?_some hl
    exact ⟨b, List.mem_of_find?_eq_some hl, rfl, of_decide_eq_true hcode⟩

end

end PrefixCodes
