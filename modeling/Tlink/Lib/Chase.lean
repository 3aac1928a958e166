import Mathlib.Data.List.Basic

/-!
# Searching for a key that the search itself replaces

`chase` walks over key-value entries and looks for a key; every hit makes the value found
the key to look for from there on. Where no value is a key this is the value of the first
hit. A value that is a key again sends the search on a detour. `Leads` says the same as a
relation.
-/
namespace Chase

variable {α : Type*} [DecidableEq α]

def chase (entries : List (α × α)) (key : α) : α :=
  entries.foldl (fun key entry => if entry.1 = key then entry.2 else key) key

@[simp] theorem chase_nil (key : α) : chase [] key = key := rfl

@[simp] theorem chase_cons (entry : α × α) (entries : List (α × α)) (key : α) :
    chase (entry :: entries) key = chase entries (if entry.1 = key then entry.2 else key) := rfl

theorem chase_append (before after : List (α × α)) (key : α) :
    chase (before ++ after) key = chase after (chase before key) :=
  List.foldl_append

theorem chase_of_absent (entries : List (α × α)) (key : α)
    (absent : ∀ entry ∈ entries, entry.1 ≠ key) : chase entries key = key := by
  induction entries with
  | nil => rfl
  | cons entry entries ih =>
    rw [chase_cons, if_neg (absent entry (by simp))]
    exact ih fun other member => absent other (by simp [member])

/-- The search goes on behind the first hit, for the value found there. -/
theorem chase_eq (entries : List (α × α)) (key : α) :
    chase entries key =
      match entries.dropWhile (fun entry => entry.1 ≠ key) with
      | [] => key
      | first :: after => chase after first.2 := by
  induction entries with
  | nil => rfl
  | cons entry entries ih =>
    by_cases hit : entry.1 = key
    · simp [hit]
    · simpa [hit] using ih

theorem exists_first (entries : List (α × α)) (key value : α) (member : (key, value) ∈ entries) :
    ∃ first after, entries.dropWhile (fun entry => entry.1 ≠ key) = (key, first) :: after ∧
      (key, first) ∈ entries ∧ ∀ entry ∈ after, entry ∈ entries := by
  induction entries with
  | nil => cases member
  | cons entry entries ih =>
    by_cases hit : entry.1 = key
    -- the first hit may carry another value than the entry that was given
    · refine ⟨entry.2, entries, by simp [← hit], by simp [← hit], ?_⟩
      intro other later
      exact List.mem_cons_of_mem entry later
    · have later : (key, value) ∈ entries := by
        rcases List.mem_cons.mp member with same | later
        · exact absurd (congrArg Prod.fst same).symm hit
        · exact later
      obtain ⟨first, after, found, member', inside⟩ := ih later
      refine ⟨first, after, by simpa [hit] using found, List.mem_cons_of_mem entry member', ?_⟩
      intro other member''
      exact List.mem_cons_of_mem entry (inside other member'')

/-- An entry that leads away from a key. -/
def leaves (key : α) (entry : α × α) : Bool := entry.1 = key && entry.2 ≠ key

/-- From a key whose other values are no keys, the search ends at the first of them. -/
theorem chase_leaves (entries : List (α × α)) (key : α)
    (final : ∀ entry ∈ entries, leaves key entry = true → ∀ other ∈ entries, other.1 ≠ entry.2) :
    chase entries key =
      match entries.find? (leaves key) with
      | none => key
      | some entry => entry.2 := by
  induction entries with
  | nil => rfl
  | cons entry entries ih =>
    have rest : chase entries key =
        match entries.find? (leaves key) with
        | none => key
        | some entry => entry.2 :=
      ih fun other member away another member' =>
        final other (by simp [member]) away another (by simp [member'])
    by_cases away : leaves key entry = true
    · have hit : entry.1 = key := by
        simp only [leaves, Bool.and_eq_true, decide_eq_true_eq] at away
        exact away.1
      -- the value found is no key, so nothing behind it is a hit
      rw [chase_cons, if_pos hit, List.find?_cons_of_pos away]
      exact chase_of_absent entries entry.2 fun other member =>
        final entry (by simp) away other (by simp [member])
    · rw [List.find?_cons_of_neg away, ← rest, chase_cons]
      -- a hit that does not lead away keeps the key
      split
      next hit =>
        have same : entry.2 = key := by
          by_contra other
          exact away (by simp [leaves, hit, other])
        rw [same]
      next => rfl

/-- Where no value is a key, the first hit is all that counts. -/
theorem chase_of_final (entries : List (α × α)) (key : α)
    (final : ∀ entry ∈ entries, ∀ other ∈ entries, other.1 ≠ entry.2) :
    chase entries key = ((entries.find? fun entry => entry.1 = key).map Prod.snd).getD key := by
  induction entries with
  | nil => rfl
  | cons entry entries ih =>
    by_cases hit : entry.1 = key
    · have stops : chase entries entry.2 = entry.2 := by
        apply chase_of_absent
        intro other member
        exact final entry (by simp) other (List.mem_cons_of_mem entry member)
      simpa [hit] using stops
    · have rest := ih fun other member another member' =>
        final other (List.mem_cons_of_mem entry member) another (List.mem_cons_of_mem entry member')
      simpa [hit] using rest

/-! ### The search as a relation -/

/-- A search ends at its key if nothing hits. Otherwise it goes on behind the first hit. -/
inductive Leads : List (α × α) → α → α → Prop
  | absent {entries : List (α × α)} {key : α} :
      (∀ entry ∈ entries, entry.1 ≠ key) → Leads entries key key
  | hit {before after : List (α × α)} {key value result : α} :
      (∀ entry ∈ before, entry.1 ≠ key) → Leads after value result →
        Leads (before ++ (key, value) :: after) key result

omit [DecidableEq α] in
/-- An entry with another key in front changes nothing. -/
theorem Leads.cons {entries : List (α × α)} {key result : α} (entry : α × α)
    (other : entry.1 ≠ key) (leads : Leads entries key result) :
    Leads (entry :: entries) key result := by
  cases leads with
  | absent none_hits =>
    apply Leads.absent
    intro e member
    rcases List.mem_cons.mp member with rfl | later
    · exact other
    · exact none_hits e later
  | @hit before after _ value _ none_hits later =>
    rw [← List.cons_append]
    apply Leads.hit _ later
    intro e member
    rcases List.mem_cons.mp member with rfl | inside
    · exact other
    · exact none_hits e inside

theorem leads_chase (entries : List (α × α)) (key : α) : Leads entries key (chase entries key) := by
  induction entries generalizing key with
  | nil => exact .absent (by simp)
  | cons entry entries ih =>
    by_cases hit : entry.1 = key
    · subst hit
      rw [chase_cons, if_pos rfl]
      exact @Leads.hit α [] entries entry.1 entry.2 _ (by simp) (ih entry.2)
    · rw [chase_cons, if_neg hit]
      exact (ih key).cons entry hit

theorem leads_iff (entries : List (α × α)) (key result : α) :
    Leads entries key result ↔ chase entries key = result := by
  constructor
  · intro leads
    induction leads with
    | absent none_hits => exact chase_of_absent _ _ none_hits
    | @hit before after key value result none_hits _ ih =>
      rw [chase_append, chase_of_absent before key none_hits, chase_cons, if_pos rfl]
      exact ih
  · rintro rfl
    exact leads_chase entries key

/-- What a search ends at is its own key or a value that was found. -/
theorem Leads.found {entries : List (α × α)} {key result : α} (leads : Leads entries key result)
    (moved : result ≠ key) : ∃ other, (other, result) ∈ entries := by
  induction leads with
  | absent _ => exact absurd rfl moved
  | @hit before after key value result _ _ ih =>
    by_cases stays : result = value
    · subst stays
      exact ⟨key, by simp⟩
    · obtain ⟨other, member⟩ := ih stays
      exact ⟨other, by simp [member]⟩

end Chase
