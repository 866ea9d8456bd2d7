import Mathlib
import Reactive.Patch

/-!
# Members and their paths

A list of members becomes a list of additions, one path for each. The paths are escaped, so they
are read back as the one token that was meant, whatever the key. The effect of many insertions into
an object is that the members override those that were there.

## Main definitions

* `OrderedMap.override` — a map with the pairs of another put over its own

## Main results

* `OrderedMap.find?_override` — what is seen in a map after that
* `Pointer.parse_render` — a pointer is read back from its text
* `Pointer.parse_member_of_parse` — so is the path of a member
-/

namespace Reactive

namespace OrderedMap

/-! ### Overriding -/

variable {α : Type u}

/-- A map with the pairs of another inserted, in order. -/
def override (entries top : OrderedMap α) : OrderedMap α :=
  top.foldl (fun entries pair => insert entries pair.1 pair.2) entries

/-- A name that is not in a map is not found. -/
theorem find?_eq_none {entries : OrderedMap α} {key : String} (h : ∀ pair ∈ entries, key ≠ pair.1) :
    find? entries key = none := by
  induction entries with
  | nil => rfl
  | cons pair rest ih =>
    rw [find?_cons, if_neg (h pair List.mem_cons_self)]
    exact ih fun other hother => h other (List.mem_cons_of_mem _ hother)

/-- What is put over a map hides it. The names above must differ, since of two the later counts. -/
theorem find?_override {top : OrderedMap α} (h : Sorted top) (entries : OrderedMap α)
    (key : String) : find? (override entries top) key = (find? top key).or (find? entries key) := by
  induction top generalizing entries with
  | nil => rfl
  | cons pair rest ih =>
    obtain ⟨hfirst, hrest⟩ := List.pairwise_cons.mp h
    have hstep : override entries (pair :: rest) = override (insert entries pair.1 pair.2) rest :=
      rfl
    rw [hstep, ih hrest, find?_insert, find?_cons]
    by_cases hkey : key = pair.1
    · have hnone : find? rest key = none :=
        find?_eq_none fun other hother he => String.lt_irrefl _ ((hkey ▸ he) ▸ hfirst other hother)
      rw [hnone, if_pos hkey, if_pos hkey]
      rfl
    · rw [if_neg hkey, if_neg hkey]

end OrderedMap

namespace Pointer

/-! ### Reading back -/

/-- An escaped token has no slash. -/
theorem slash_notMem_escape (cs : List Char) : '/' ∉ escape cs := by
  induction cs with
  | nil => simp [escape]
  | cons c rest ih =>
    rw [escape]
    split
    · simp [ih]
    · split
      · simp [ih]
      · next hslash => simp [ih, Ne.symm hslash]

/-- Between the slashes of a text stand the escaped tokens. -/
theorem splitOn_escape (first : List Char) (rest : List (List Char)) :
    (escape first ++ rest.flatMap fun token => '/' :: escape token).splitOn '/'
      = escape first :: rest.map escape := by
  induction rest generalizing first with
  | nil =>
    rw [List.flatMap_nil, List.append_nil, List.map_nil]
    exact List.splitOn_eq_singleton (slash_notMem_escape first)
  | cons second rest ih =>
    rw [List.flatMap_cons, List.cons_append,
      List.splitOn_append_cons_self_of_not_mem (slash_notMem_escape first), ih, List.map_cons]

theorem token_escape (token : String) : Pointer.token (escape token.toList) = .ok token := by
  rw [Pointer.token, unescape?_escape]
  exact congrArg Except.ok String.ofList_toList

theorem mapM_token_escape (tokens : Pointer) :
    (tokens.map fun token => escape token.toList).mapM Pointer.token = .ok tokens := by
  have hread : (Pointer.token ∘ fun token => escape token.toList) = fun token => pure token := by
    funext token
    exact token_escape token
  rw [List.mapM_map, hread, List.mapM_pure, List.map_id']
  rfl

/-- **A pointer is read back from its text.** -/
theorem parse_render (tokens : Pointer) : parse (render tokens) = .ok tokens := by
  cases tokens with
  | nil => rfl
  | cons first rest =>
    have hsplit := splitOn_escape first.toList (rest.map String.toList)
    rw [List.flatMap_map, List.map_map] at hsplit
    have hchars : (render (first :: rest)).toList
        = '/' :: (escape first.toList ++ rest.flatMap fun token => '/' :: escape token.toList) := by
      rw [render, String.toList_ofList, List.flatMap_cons, List.cons_append]
    have hread := mapM_token_escape (first :: rest)
    rw [parse, hchars]
    simp only [if_true]
    rw [hsplit]
    exact hread

/-- The path of a member at a parent path reads as the parent's pointer, led on by the key; it cannot
be read if the parent path cannot. -/
theorem parse_member (parent key : String) :
    parse (parent ++ "/" ++ escapeToken key)
      = (parse parent).map fun tokens => tokens ++ [key] := by
  have hchars : (parent ++ "/" ++ escapeToken key).toList
      = parent.toList ++ '/' :: escape key.toList := by
    simp [escapeToken]
  have hkey : (escape key.toList).splitOn '/' = [escape key.toList] :=
    List.splitOn_eq_singleton (slash_notMem_escape key.toList)
  rw [parse, hchars, parse]
  cases parent.toList with
  | nil =>
    simp only [List.nil_append, if_true, hkey, List.mapM_cons, List.mapM_nil, token_escape]
    rfl
  | cons c rest =>
    simp only [List.cons_append]
    split
    · rw [List.splitOn_append_cons_self, hkey, List.mapM_append]
      cases (rest.splitOn '/').mapM token with
      | error fault => rfl
      | ok tokens =>
        simp only [List.mapM_cons, List.mapM_nil, token_escape]
        rfl
    · rfl

theorem parse_member_of_parse {parent : String} {tokens : Pointer} (h : parse parent = .ok tokens)
    (key : String) : parse (parent ++ "/" ++ escapeToken key) = .ok (tokens ++ [key]) := by
  rw [parse_member, h]
  rfl

end Pointer

end Reactive
