import Avtp.Proofs.Announcements

/-!
# Views delimit themselves

A view needs nothing but its own octets. What the front announces is in the view, because the view
covers the front, and the announced end is the end of the view. So the octets of a view, followed by
whatever else, split into this view and the rest again (`View.split?_octets_append`). In particular
they can be kept and taken as a whole later.

The three ways to take a view answer alike: they differ in what they do with the octets behind it,
not in what they accept (`View.taken_alike`).
-/

namespace Avtp

namespace Header

variable {h : Header} {buf : List UInt8} {count : Nat}

theorem opening_size_le (h : Header) : h.opening.size ≤ h.size := by
  cases h <;> decide

/-- **An extent depends on the octets inside it alone.** -/
theorem extent?_take_append (hcount : h.extent? buf = .ok count) (more : List UInt8) :
    h.extent? (buf.take count ++ more) = .ok count := by
  obtain ⟨hsize, hlen⟩ := bounds_of_extent? hcount
  have hfront : h.opening.size ≤ count := Nat.le_trans h.opening_size_le hsize
  have htake : (buf.take count).length = count := List.length_take_of_le hlen
  -- Both buffers begin with the octets of the extent, hence with the same front.
  have hann : h.announcement (buf.take count ++ more) = h.announcement buf := by
    have hown : h.opening.size ≤ (buf.take count).length := htake.symm ▸ hfront
    calc h.announcement (buf.take count ++ more)
        = h.announcement (buf.take count) := announcement_append h more hown
      _ = h.announcement (buf.take count ++ buf.drop count) :=
          (announcement_append h (buf.drop count) hown).symm
      _ = h.announcement buf := by rw [List.take_append_drop]
  have hreach : count ≤ (buf.take count ++ more).length := by
    rw [List.length_append, htake]
    exact Nat.le_add_right _ _
  rw [extent?_eq, if_neg (by omega)] at hcount
  rw [extent?_eq, if_neg (by omega), hann]
  exact Announcement.resolve_eq_ok_of_le (sound_announcement h buf) hcount hreach

end Header

namespace View

variable {h : Header} {buf rest : List UInt8} {view : View h}

/-- A view in place covers what a view cut off the buffer covers. -/
theorem map_over?_eq (h : Header) (buf : List UInt8) :
    (Window.over? h buf).map (fun window ↦ (window.view, window.rest)) = split? h buf := by
  rw [Window.over?, split?]
  cases size? h buf <;> rfl

/-- A buffer is a view as a whole if nothing is left over behind the view. -/
theorem whole?_eq_ok_iff_split? : whole? h buf = .ok view ↔ split? h buf = .ok (view, []) := by
  rw [whole?_eq_ok_iff, split?_eq_ok_iff]
  constructor
  · rintro ⟨hextent, rfl⟩
    exact ⟨buf.length, hextent, by rw [List.take_length], List.drop_length.symm⟩
  · rintro ⟨count, hextent, rfl, hrest⟩
    obtain rfl : count = buf.length :=
      Nat.le_antisymm (Header.bounds_of_extent? hextent).2 (List.drop_eq_nil_iff.mp hrest.symm)
    exact ⟨hextent, by rw [List.take_length]⟩

theorem split?_eq_error_iff {reason : ViewError} :
    split? h buf = .error reason ↔ size? h buf = .error reason := by
  rw [split?]
  cases size? h buf <;> simp

theorem whole?_eq_error_of_split? {reason : ViewError} (hsplit : split? h buf = .error reason) :
    whole? h buf = .error reason := by
  rw [whole?, split?_eq_error_iff.mp hsplit]

/-- Octets that are left over are refused, and for no other reason. -/
theorem whole?_eq_sizeMismatch (hsplit : split? h buf = .ok (view, rest)) (hrest : rest ≠ []) :
    whole? h buf = .error .sizeMismatch := by
  obtain ⟨count, hextent, rfl, rfl⟩ := split?_eq_ok_iff.mp hsplit
  have hne : buf.length ≠ count := by
    rintro rfl
    exact hrest List.drop_length
  rw [whole?, size?_eq_ok_iff.mpr hextent]
  exact if_neg hne

/-- **Whatever follows the octets of a view, it is the rest.** -/
theorem split?_octets_append (hsplit : split? h buf = .ok (view, rest)) (more : List UInt8) :
    split? h (view.octets ++ more) = .ok (view, more) := by
  obtain ⟨count, hextent, rfl, rfl⟩ := split?_eq_ok_iff.mp hsplit
  have htake : (buf.take count).length = count :=
    List.length_take_of_le (Header.bounds_of_extent? hextent).2
  refine split?_eq_ok_iff.mpr ⟨count, Header.extent?_take_append hextent more, ?_, ?_⟩
  · rw [List.take_left' htake]
  · rw [List.drop_left' htake]

/-- **The octets of a view are a view as a whole.** -/
theorem whole?_octets (hsplit : split? h buf = .ok (view, rest)) :
    whole? h view.octets = .ok view := by
  have halone := split?_octets_append hsplit []
  rw [List.append_nil] at halone
  exact whole?_eq_ok_iff_split?.mpr halone

/-- **Three ways to take a view, one view.** In place, cut off and as a whole, the same buffers are
refused for the same reasons, except that a whole must not leave octets over. Taken views are what
is in front of the rest, and their octets are again views of the same header, alone and in front of
any other octets. -/
theorem taken_alike (h : Header) (buf : List UInt8) :
    (Window.over? h buf).map (fun window ↦ (window.view, window.rest)) = split? h buf ∧
      (∀ view, whole? h buf = .ok view ↔ split? h buf = .ok (view, [])) ∧
        (∀ reason, split? h buf = .error reason → whole? h buf = .error reason) ∧
          ∀ view rest, split? h buf = .ok (view, rest) →
            view.octets ++ rest = buf ∧ (rest ≠ [] → whole? h buf = .error .sizeMismatch) ∧
              (∀ more, split? h (view.octets ++ more) = .ok (view, more)) ∧
                whole? h view.octets = .ok view :=
  ⟨map_over?_eq h buf, fun _ ↦ whole?_eq_ok_iff_split?, fun _ ↦ whole?_eq_error_of_split?,
    fun _ _ hsplit ↦ ⟨append_of_split? hsplit, whole?_eq_sizeMismatch hsplit,
      split?_octets_append hsplit, whole?_octets hsplit⟩⟩

/-- A message in front of the first two octets of another. -/
theorem taken_alike_lin :
    whole? .lin ([6, 3] ++ List.replicate 10 0 ++ [6, 4]) = .error .sizeMismatch ∧
      (∀ more, split? .lin ([6, 3] ++ List.replicate 10 0 ++ more) =
        .ok (⟨[6, 3] ++ List.replicate 10 0⟩, more)) ∧
        whole? .lin ([6, 3] ++ List.replicate 10 0) = .ok ⟨[6, 3] ++ List.replicate 10 0⟩ ∧
          whole? .lin [6, 4] = .error (.bufferTooSmall (.header .acf) 4 2) :=
  have hsplit := (taken_alike .lin ([6, 3] ++ List.replicate 10 0 ++ [6, 4])).2.2.2 _ _ rfl
  ⟨hsplit.2.1 (List.cons_ne_nil _ _), hsplit.2.2.1, hsplit.2.2.2,
    (taken_alike .lin [6, 4]).2.2.1 _ rfl⟩

end View

end Avtp
