namespace VisualNovel.Text

def size (text : List Char) : Nat :=
  (String.ofList text).utf8ByteSize

/-- The first bytes of a text, unless they end inside a character or beyond it. -/
def takeBytes? : (bytes : Nat) → List Char → Option (List Char)
  | 0, _ => some []
  | _ + 1, [] => none
  | bytes + 1, char :: text =>
      if char.utf8Size ≤ bytes + 1 then
        (takeBytes? (bytes + 1 - char.utf8Size) text).map (char :: ·)
      else none

def dropBytes? : (bytes : Nat) → List Char → Option (List Char)
  | 0, text => some text
  | _ + 1, [] => none
  | bytes + 1, char :: text =>
      if char.utf8Size ≤ bytes + 1 then dropBytes? (bytes + 1 - char.utf8Size) text else none

@[simp] theorem size_nil : size [] = 0 := rfl

@[simp] theorem size_append (before after : List Char) :
    size (before ++ after) = size before + size after := by
  simp [size, String.ofList_append]

@[simp] theorem size_cons (char : Char) (text : List Char) :
    size (char :: text) = char.utf8Size + size text := by
  have single : size [char] = char.utf8Size := by simp [size]
  rw [← List.singleton_append, size_append, single]

theorem size_toList (text : String) : size text.toList = text.utf8ByteSize := by
  simp [size]

theorem size_pos_iff {text : List Char} : 0 < size text ↔ text ≠ [] := by
  cases text with
  | nil => simp
  | cons char text =>
      have some := char.utf8Size_pos
      simp only [size_cons, ne_eq, reduceCtorEq, not_false_eq_true, iff_true]
      omega

@[simp] theorem takeBytes?_zero (text : List Char) : takeBytes? 0 text = some [] := by
  cases text <;> rfl

@[simp] theorem dropBytes?_zero (text : List Char) : dropBytes? 0 text = some text := by
  cases text <;> rfl

section Cut

variable (char : Char) (text : List Char) (bytes : Nat)

theorem takeBytes?_cons : takeBytes? (char.utf8Size + bytes) (char :: text) =
    (takeBytes? bytes text).map (char :: ·) := by
  have some := char.utf8Size_pos
  obtain ⟨more, same⟩ : ∃ more, char.utf8Size + bytes = more + 1 :=
    Nat.exists_eq_succ_of_ne_zero (by omega)
  rw [same, takeBytes?, if_pos (by omega), ← same, Nat.add_sub_cancel_left]

theorem dropBytes?_cons : dropBytes? (char.utf8Size + bytes) (char :: text) =
    dropBytes? bytes text := by
  have some := char.utf8Size_pos
  obtain ⟨more, same⟩ : ∃ more, char.utf8Size + bytes = more + 1 :=
    Nat.exists_eq_succ_of_ne_zero (by omega)
  rw [same, dropBytes?, if_pos (by omega), ← same, Nat.add_sub_cancel_left]

end Cut

theorem takeBytes?_size_append (before after : List Char) :
    takeBytes? (size before) (before ++ after) = some before := by
  induction before with
  | nil => simp
  | cons char before ih => rw [List.cons_append, size_cons, takeBytes?_cons, ih]; rfl

theorem dropBytes?_size_append (before after : List Char) :
    dropBytes? (size before) (before ++ after) = some after := by
  induction before with
  | nil => simp
  | cons char before ih => rw [List.cons_append, size_cons, dropBytes?_cons, ih]

theorem takeBytes?_prefix {bytes : Nat} {text before : List Char}
    (cut : takeBytes? bytes text = some before) : before <+: text := by
  fun_induction takeBytes? bytes text generalizing before with
  | case1 text =>
      cases cut
      exact List.nil_prefix
  | case2 => cases cut
  | case3 bytes char text fits ih =>
      obtain ⟨others, taken, rfl⟩ := Option.map_eq_some_iff.mp cut
      exact List.cons_prefix_cons.mpr ⟨rfl, ih taken⟩
  | case4 => cases cut

theorem dropBytes?_eq_some {bytes : Nat} {text after : List Char}
    (cut : dropBytes? bytes text = some after) :
    ∃ before, text = before ++ after ∧ bytes = size before := by
  fun_induction dropBytes? bytes text with
  | case1 text =>
      cases cut
      exact ⟨[], rfl, size_nil.symm⟩
  | case2 => cases cut
  | case3 bytes char text fits ih =>
      obtain ⟨before, rfl, same⟩ := ih cut
      refine ⟨char :: before, rfl, ?_⟩
      rw [size_cons, ← same]
      omega
  | case4 => cases cut

end VisualNovel.Text
