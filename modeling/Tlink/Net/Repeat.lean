import Tlink.Net.Build

/-!
# What is refused once is refused again

A class or a queue that was added is in its own way, and one that was refused stays refused: later
additions only matter where they supply the class that was missing above it.
-/
namespace Tlink.Net

open Tlink.Runtime

namespace Htb

/-- A class that was added is in its own way. -/
theorem refusesClass_again (takes : Intake) (htb : Htb) (c : HtbClass) :
    (htb.addClassIf takes c).RefusesClass takes c := by
  rcases htb.addClassIf_cases takes c with added | ⟨refused, same⟩
  · rw [added]
    simp [RefusesClass, admitsClass, hasClass, addClass]
  · rwa [same]

/-- Another class only matters where it is the missing parent. -/
theorem RefusesClass.addClassIf {takes : Intake} {htb : Htb} {c : HtbClass}
    (refused : htb.RefusesClass takes c)
    (other : HtbClass) (unrelated : other.id ≠ c.parent) :
    (htb.addClassIf takes other).RefusesClass takes c := by
  rcases htb.addClassIf_cases takes other with added | ⟨_, same⟩
  · rw [added]
    rintro ⟨room, positive⟩
    obtain ⟨known, unused⟩ := (admitsClass_iff _ _ _).mp room
    apply refused
    refine ⟨(admitsClass_iff _ _ _).mpr ⟨?_, ?_⟩, positive⟩
    · rcases known with root | ⟨parent, member, same⟩
      · exact .inl root
      · rcases List.mem_append.mp member with old | new
        · exact .inr ⟨parent, old, same⟩
        · rw [List.mem_singleton.mp new] at same
          exact absurd same unrelated
    · intro d member
      exact unused d (List.mem_append_left _ member)
  · rwa [same]

theorem RefusesClass.addNetemIf {takes : Intake} {htb : Htb} {c : HtbClass}
    (refused : htb.RefusesClass takes c)
    (q : Netem) : (htb.addNetemIf takes q).RefusesClass takes c := by
  rcases htb.addNetemIf_cases takes q with added | ⟨_, same⟩
  · rw [added]
    exact refused
  · rwa [same]

theorem RefusesClass.addFilter {takes : Intake} {htb : Htb} {c : HtbClass}
    (refused : htb.RefusesClass takes c)
    (f : Filter) : (htb.addFilter f).RefusesClass takes c := refused

/-- A queue that was added holds its class and its handle. -/
theorem refusesNetem_again (takes : Intake) (htb : Htb) (q : Netem) :
    (htb.addNetemIf takes q).RefusesNetem takes q := by
  rcases htb.addNetemIf_cases takes q with added | ⟨refused, same⟩
  · rw [added]
    simp [RefusesNetem, admitsNetem, addNetem]
  · rwa [same]

/-- A new class can make its parent an inner class, never a leaf. -/
theorem RefusesNetem.addClassIf {takes : Intake} {htb : Htb} {q : Netem}
    (refused : htb.RefusesNetem takes q) (c : HtbClass) (unrelated : c.id ≠ q.parent) :
    (htb.addClassIf takes c).RefusesNetem takes q := by
  rcases htb.addClassIf_cases takes c with added | ⟨_, same⟩
  · rw [added]
    rintro ⟨room, accepted⟩
    obtain ⟨⟨parent, member, same⟩, leaf, free⟩ := (admitsNetem_iff _ _ _).mp room
    apply refused
    refine ⟨(admitsNetem_iff _ _ _).mpr ⟨?_, ?_, free⟩, accepted⟩
    · rcases List.mem_append.mp member with old | new
      · exact ⟨parent, old, same⟩
      · rw [List.mem_singleton.mp new] at same
        exact absurd same unrelated
    · intro d inside
      exact leaf d (List.mem_append_left _ inside)
  · rwa [same]

theorem RefusesNetem.addNetemIf {takes : Intake} {htb : Htb} {q : Netem}
    (refused : htb.RefusesNetem takes q) (other : Netem) :
    (htb.addNetemIf takes other).RefusesNetem takes q := by
  rcases htb.addNetemIf_cases takes other with added | ⟨_, same⟩
  · rw [added]
    rintro ⟨room, accepted⟩
    obtain ⟨known, leaf, free⟩ := (admitsNetem_iff _ _ _).mp room
    apply refused
    refine ⟨(admitsNetem_iff _ _ _).mpr ⟨known, leaf, ?_⟩, accepted⟩
    intro q' member
    exact free q' (List.mem_append_left _ member)
  · rwa [same]

theorem RefusesNetem.addFilter {takes : Intake} {htb : Htb} {q : Netem}
    (refused : htb.RefusesNetem takes q) (f : Filter) :
    (htb.addFilter f).RefusesNetem takes q := refused

end Htb

end Tlink.Net
