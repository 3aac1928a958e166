import Tlink.Testbed.PacketRing

/-!
# What gets through the ring

The two threads of a ring run at their own speed. As long as no packet is enqueued in the one state in
which the condition to wait misses a full ring, every packet that was published is read once, whole and
in order. In that state the ring turns into an empty one and everything in it is gone.
-/
namespace Tlink.Properties

open Tlink.Testbed

variable {α : Type}

/-! ### Any interleaving -/

/-- The packets the reporter was given a pointer to. -/
def taken (s : Threads α) : ℕ := s.got.length + if s.reading then 1 else 0

structure Sound (count : ℕ) (s : Threads α) : Prop where
  maxcount : s.ring.maxcount = count
  layout : Ring.Layout count s.ring.data s.sent (taken s)
  producer : s.ring.producer = s.sent.length % count
  consumer : s.ring.consumer = taken s % count
  got : s.got <+: s.sent
  /-- Room that was found stays, since only the reporter can change it. -/
  free : s.writing ≠ .idle → s.sent.length + 1 < taken s + count
  written : ∀ metapacket, s.writing = .copied metapacket →
    s.ring.data ((s.sent.length + 1) % count) = metapacket

theorem sound_start (count : ℕ) (positive : 0 < count) (zeroed : α) :
    Sound count (.start count positive zeroed) where
  maxcount := rfl
  layout := Ring.Layout.start count _ positive
  producer := (Nat.zero_mod count).symm
  consumer := (Nat.zero_mod count).symm
  got := List.prefix_rfl
  free busy := absurd rfl busy
  written metapacket copied := by cases copied

theorem Sound.writeindex {count : ℕ} {s : Threads α} (sound : Sound count s) :
    s.ring.writeindex = (s.sent.length + 1) % count := by
  rw [PacketRing.writeindex, sound.maxcount, sound.producer, Ring.next_mod _ _ sound.layout.positive]

theorem Sound.readindex {count : ℕ} {s : Threads α} (sound : Sound count s) :
    s.ring.readindex = (taken s + 1) % count := by
  rw [PacketRing.readindex, sound.maxcount, sound.consumer, Ring.next_mod _ _ sound.layout.positive]

/-- The next slot is the reporter's exactly if all others are in use. -/
theorem Sound.full_iff {count : ℕ} {s : Threads α} (sound : Sound count s) :
    s.ring.writeindex = s.ring.consumer ↔ s.sent.length + 1 = taken s + count := by
  rw [PacketRing.writeindex, sound.maxcount, sound.producer, sound.consumer]
  exact sound.layout.full_iff

theorem Sound.claim {count : ℕ} {s s' : Threads α} (sound : Sound count s) (metapacket : α)
    (taken_step : s.step (.claim metapacket) = some s') (careful : ¬ s.ring.Overflows) :
    Sound count s' := by
  simp only [Threads.step] at taken_step
  split at taken_step
  next idle =>
    split at taken_step
    next => cases taken_step
    next notFull =>
      obtain rfl := Option.some.inj taken_step
      have apart : s.ring.writeindex ≠ s.ring.consumer := by
        rw [ne_eq, s.ring.writeindex_eq_consumer_iff]
        exact not_or.mpr ⟨notFull, careful⟩
      have room := sound.layout.room
      have free : s.sent.length + 1 ≠ taken s + count := fun full => apart (sound.full_iff.mpr full)
      refine ⟨sound.maxcount, sound.layout, sound.producer, sound.consumer, sound.got, ?_, ?_⟩
      · intro _
        change s.sent.length + 1 < taken s + count
        omega
      · intro m copied
        cases copied
  next => cases taken_step

theorem Sound.copy {count : ℕ} {s s' : Threads α} (sound : Sound count s)
    (taken_step : s.step .copy = some s') : Sound count s' := by
  simp only [Threads.step] at taken_step
  split at taken_step
  next metapacket claimed =>
    obtain rfl := Option.some.inj taken_step
    have free := sound.free (by simp [claimed])
    refine ⟨sound.maxcount, ?_, sound.producer, sound.consumer, sound.got, fun _ => free, ?_⟩
    · change Ring.Layout count (Function.update s.ring.data s.ring.writeindex metapacket) _ _
      rw [sound.writeindex]
      exact sound.layout.write free metapacket
    · intro m copied
      obtain rfl := Writing.copied.inj copied
      change Function.update s.ring.data s.ring.writeindex metapacket _ = metapacket
      rw [sound.writeindex, Function.update_self]
  next => cases taken_step

theorem Sound.publish {count : ℕ} {s s' : Threads α} (sound : Sound count s)
    (taken_step : s.step .publish = some s') : Sound count s' := by
  simp only [Threads.step] at taken_step
  split at taken_step
  next metapacket copied =>
    obtain rfl := Option.some.inj taken_step
    have free := sound.free (by simp [copied])
    refine ⟨sound.maxcount, ?_, ?_, sound.consumer, ?_, ?_, ?_⟩
    · exact sound.layout.publish free metapacket (sound.written metapacket copied)
    · change s.ring.writeindex = (s.sent ++ [metapacket]).length % count
      rw [sound.writeindex, List.length_append, List.length_singleton]
    · exact sound.got.trans (List.prefix_append _ _)
    · exact fun busy => absurd rfl busy
    · intro m again
      cases again
  next => cases taken_step

theorem Sound.take {count : ℕ} {s s' : Threads α} (sound : Sound count s)
    (taken_step : s.step .take = some s') : Sound count s' := by
  simp only [Threads.step] at taken_step
  split at taken_step
  next => cases taken_step
  next ready =>
    obtain rfl := Option.some.inj taken_step
    obtain ⟨notReading, nonempty⟩ := not_or.mp ready
    have before : taken s = s.got.length := by simp [taken, notReading]
    -- the two indices differ, so something is in the ring
    have left : taken s < s.sent.length := by
      have bound := sound.layout.taken_le
      rw [sound.producer, sound.consumer, sound.layout.empty_iff] at nonempty
      omega
    -- the packet moves from the reader to what was got, and the count stays
    have after : s.got.length + 1 = taken s + 1 := by rw [before]
    refine ⟨sound.maxcount, ?_, sound.producer, ?_, sound.got, ?_, sound.written⟩
    · change Ring.Layout count s.ring.data s.sent (s.got.length + 1)
      rw [after]
      exact sound.layout.take left
    · change s.ring.readindex = (s.got.length + 1) % count
      rw [after, sound.readindex]
    · intro busy
      have free := sound.free busy
      change s.sent.length + 1 < s.got.length + 1 + count
      omega

/-- The slot still holds the packet the pointer was for. -/
theorem Sound.read {count : ℕ} {s s' : Threads α} (sound : Sound count s)
    (taken_step : s.step .read = some s') : Sound count s' := by
  simp only [Threads.step] at taken_step
  split at taken_step
  next reading =>
    obtain rfl := Option.some.inj taken_step
    have before : taken s = s.got.length + 1 := by simp [taken, reading]
    have layout := sound.layout
    rw [before] at layout
    -- the writer keeps off the slot until it is given back
    have packet := layout.given
    rw [← before, ← sound.consumer] at packet
    have after : (s.got ++ [s.ring.data s.ring.consumer]).length + 0 = taken s := by
      rw [before, List.length_append, List.length_singleton]
    refine ⟨sound.maxcount, ?_, sound.producer, ?_, ?_, ?_, sound.written⟩
    · change Ring.Layout count s.ring.data s.sent ((s.got ++ [s.ring.data s.ring.consumer]).length + 0)
      rw [after]
      exact sound.layout
    · change s.ring.consumer = ((s.got ++ [s.ring.data s.ring.consumer]).length + 0) % count
      rw [after]
      exact sound.consumer
    · obtain ⟨rest, split⟩ := sound.got
      have next : rest[0]? = some (s.ring.data s.ring.consumer) := by
        rw [← split, List.getElem?_append_right (Nat.le_refl _), Nat.sub_self] at packet
        exact packet
      obtain ⟨rest, rfl⟩ : ∃ rest', rest = s.ring.data s.ring.consumer :: rest' := by
        cases rest with
        | nil => cases next
        | cons first rest => exact ⟨rest, by rw [Option.some.inj next]⟩
      exact ⟨rest, by rw [← split]; simp⟩
    · intro busy
      have free := sound.free busy
      change s.sent.length + 1 < (s.got ++ [s.ring.data s.ring.consumer]).length + 0 + count
      omega
  next => cases taken_step

theorem sound_reached (count : ℕ) (positive : 0 < count) (zeroed : α) (s : Threads α)
    (reached : Threads.Reached count positive zeroed s) : Sound count s := by
  induction reached with
  | start => exact sound_start count positive zeroed
  | step act _ taken_step careful ih =>
    cases act with
    | claim metapacket => exact ih.claim metapacket taken_step (careful metapacket rfl)
    | copy => exact ih.copy taken_step
    | publish => exact ih.publish taken_step
    | take => exact ih.take taken_step
    | read => exact ih.read taken_step

/-- However the steps of the two threads interleave, as long as nothing is enqueued in the state which the
condition to wait misses: the reporter reads what was published, in order, nothing twice and nothing left
out; what it reads is never written to at the same time; the traffic thread waits only for a ring whose
slots are all in use, and a ring that looks empty is. -/
theorem ring_fifo (count : ℕ) (positive : 0 < count) (zeroed : α) (s : Threads α)
    (reached : Threads.Reached count positive zeroed s) :
    s.got <+: s.sent ∧ s.sent.length < taken s + count ∧
    (s.writing ≠ .idle → s.ring.writeindex ≠ s.ring.consumer) ∧
    (s.ring.full = true → s.sent.length + 1 = taken s + count) ∧
    (s.reading = false → s.ring.producer = s.ring.consumer → s.got = s.sent) := by
  have sound := sound_reached count positive zeroed s reached
  refine ⟨sound.got, sound.layout.room, ?_, ?_, ?_⟩
  · intro busy met
    have free := sound.free busy
    have full := sound.full_iff.mp met
    omega
  · intro waits
    exact sound.full_iff.mp (s.ring.writeindex_eq_consumer_iff.mpr (.inl waits))
  · intro notReading looksEmpty
    rw [sound.producer, sound.consumer, sound.layout.empty_iff] at looksEmpty
    have all : s.got.length = s.sent.length := by
      rw [looksEmpty, taken, notReading]
      simp
    exact sound.got.eq_of_length all

/-- The second packet is claimed before the first one is read. -/
theorem ring_fifo_sample : ∃ s : Threads ℕ, s.got = [1] ∧ s.writing = .claimed 2 ∧
    s.got <+: s.sent ∧ s.ring.writeindex ≠ s.ring.consumer := by
  have one : Threads.Reached 3 (by decide) 0 _ := .step (.claim 1) .start rfl fun _ _ => by decide
  have two := one.step .copy rfl nofun
  have three := two.step .publish rfl nofun
  have four := three.step .take rfl nofun
  have five := four.step (.claim 2) rfl fun _ _ => by decide
  have six := five.step .read rfl nofun
  obtain ⟨inOrder, _, apart, _⟩ := ring_fifo 3 (by decide) 0 _ six
  exact ⟨_, rfl, rfl, inOrder, apart nofun⟩

end Tlink.Properties
