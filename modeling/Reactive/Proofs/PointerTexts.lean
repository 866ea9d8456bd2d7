import Mathlib
import Reactive.Proofs.Fields

/-!
# Texts of pointers

Every list of tokens is a pointer, whatever is in the tokens, and every pointer has one text. To
write it, tildes are replaced first and then slashes: the tilde of a replaced slash must not be
replaced again. To read it, the text is split at its slashes and each segment is scanned from left
to right. The two ways of going about it agree: a text is read as a pointer exactly if it is the
text of that pointer.

Which texts can be read is said without tokens. A tilde must be followed by `0` or `1`, and a text
that is not empty must start with a slash. Nothing is asked of the rest.

## Main definitions

* `Pointer.replaceAll` — one character of a text replaced throughout
* `Pointer.Escaped` — every tilde is followed by `0` or `1`

## Main results

* `Pointer.escape_eq_replaceAll` — escaping is replacing twice
* `Pointer.isSome_unescape?_iff`, `escaped_intercalate_iff` — segments that can be read
* `Pointer.parse_eq_ok_iff` — **a text is read as the pointer that is written so**
* `Pointer.exists_parse_iff` — the texts that can be read
* `Pointer.texts_of_pointers`
-/

namespace Reactive

namespace Pointer

/-! ### Escaping as replacement -/

/-- A text with every occurrence of a character replaced by a text. -/
def replaceAll (c : Char) (replacement text : List Char) : List Char :=
  text.flatMap fun x => if x = c then replacement else [x]

theorem replaceAll_cons (c : Char) (replacement : List Char) (x : Char) (rest : List Char) :
    replaceAll c replacement (x :: rest)
      = (if x = c then replacement else [x]) ++ replaceAll c replacement rest :=
  List.flatMap_cons

/-- **Escaping is replacing twice**, first the tildes and then the slashes. -/
theorem escape_eq_replaceAll (cs : List Char) :
    escape cs = replaceAll '/' ['~', '1'] (replaceAll '~' ['~', '0'] cs) := by
  induction cs with
  | nil => rfl
  | cons c rest ih =>
    by_cases htilde : c = '~'
    · simp [escape, htilde, ih, replaceAll_cons]
    · by_cases hslash : c = '/' <;> simp [escape, htilde, hslash, ih, replaceAll_cons]

/-! ### Tildes -/

/-- Every tilde of a text is followed by `0` or `1`. -/
def Escaped (text : List Char) : Prop :=
  ∀ before after, text = before ++ '~' :: after →
    after.head? = some '0' ∨ after.head? = some '1'

@[simp] theorem escaped_nil : Escaped [] := by
  intro before after h
  simp at h

theorem escaped_cons_iff {c : Char} {rest : List Char} : Escaped (c :: rest) ↔
    (c = '~' → rest.head? = some '0' ∨ rest.head? = some '1') ∧ Escaped rest := by
  constructor
  · intro h
    refine ⟨?_, ?_⟩
    · rintro rfl
      exact h [] rest rfl
    · intro before after hrest
      exact h (c :: before) after (by simp [hrest])
  · rintro ⟨hfirst, hrest⟩ before after h
    cases before with
    | nil =>
      obtain ⟨rfl, rfl⟩ := List.cons.inj h
      exact hfirst rfl
    | cons x before =>
      obtain ⟨rfl, htail⟩ := List.cons.inj h
      exact hrest before after htail

/-- A slash ends what a tilde may begin, so it cuts a text in two. -/
theorem escaped_append_slash_iff {first second : List Char} :
    Escaped (first ++ '/' :: second) ↔ Escaped first ∧ Escaped second := by
  induction first with
  | nil => simp [escaped_cons_iff]
  | cons c rest ih =>
    have hhead : ∀ digit : Char, digit ≠ '/' →
        ((rest ++ '/' :: second).head? = some digit ↔ rest.head? = some digit) := by
      intro digit hdigit
      cases rest <;> simp [Ne.symm hdigit]
    rw [List.cons_append, escaped_cons_iff, escaped_cons_iff, ih, hhead '0' (by decide),
      hhead '1' (by decide), and_assoc]

theorem escaped_intercalate_iff {segments : List (List Char)} :
    Escaped (['/'].intercalate segments) ↔ ∀ segment ∈ segments, Escaped segment := by
  induction segments with
  | nil => simp
  | cons first rest ih =>
    cases rest with
    | nil => simp
    | cons second rest =>
      rw [List.intercalate_cons_cons, List.append_assoc, List.singleton_append,
        escaped_append_slash_iff, ih]
      simp

/-- A segment can be read if and only if its tildes are followed by digits. -/
theorem isSome_unescape?_iff (cs : List Char) : (unescape? cs).isSome = true ↔ Escaped cs := by
  fun_induction unescape? cs with
  | case1 => simp
  | case2 rest ih => simp [escaped_cons_iff, ih]
  | case3 rest ih => simp [escaped_cons_iff, ih]
  | case4 rest hzero hone =>
    have hnot : ¬ (rest.head? = some '0' ∨ rest.head? = some '1') := by
      cases rest with
      | nil => simp
      | cons x rest => simp_all
    simp [escaped_cons_iff, hnot]
  | case5 c rest hzero hone hc ih => simp [escaped_cons_iff, hc, ih]

/-! ### Segments -/

/-- What stands between two slashes has none. -/
theorem slash_notMem_of_mem_splitOn {text segment : List Char} (h : segment ∈ text.splitOn '/') :
    '/' ∉ segment := by
  induction text generalizing segment with
  | nil => simp_all
  | cons x rest ih =>
    rw [List.splitOn_cons_eq_if_modifyHead] at h
    split at h
    · rcases List.mem_cons.mp h with rfl | h
      · simp
      · exact ih h
    · next hx =>
      cases hsplit : rest.splitOn '/' with
      | nil => simp [hsplit] at h
      | cons first others =>
        rw [hsplit, List.modifyHead_cons] at h
        rcases List.mem_cons.mp h with rfl | h
        · have hfirst : '/' ∉ first := ih (by simp [hsplit])
          have hne : x ≠ '/' := by simpa using hx
          simp [Ne.symm hne, hfirst]
        · exact ih (by simp [hsplit, h])

theorem cons_intercalate {segments : List (List Char)} (h : segments ≠ []) :
    '/' :: ['/'].intercalate segments = segments.flatMap ('/' :: ·) := by
  induction segments with
  | nil => exact absurd rfl h
  | cons first rest ih =>
    cases rest with
    | nil => simp
    | cons second rest =>
      have hrest := ih (List.cons_ne_nil second rest)
      rw [List.flatMap_cons, ← hrest, List.intercalate_cons_cons]
      simp

/-- A segment is read as the token that is written so. -/
theorem token_eq_ok_iff {segment : List Char} (h : '/' ∉ segment) {name : String} :
    token segment = .ok name ↔ segment = escape name.toList := by
  constructor
  · intro htoken
    rw [token] at htoken
    split at htoken
    · next chars hchars =>
      obtain rfl := Except.ok.inj htoken
      rw [String.toList_ofList, escape_of_unescape?_eq_some h hchars]
    · cases htoken
  · rintro rfl
    exact token_escape name

/-- A segment is the written form of a token if and only if its tildes are followed by digits. -/
theorem exists_escape_iff {segment : List Char} (h : '/' ∉ segment) :
    (∃ name : String, escape name.toList = segment) ↔ Escaped segment := by
  rw [← isSome_unescape?_iff]
  constructor
  · rintro ⟨name, rfl⟩
    simp
  · intro hsome
    obtain ⟨chars, hchars⟩ := Option.isSome_iff_exists.mp hsome
    refine ⟨String.ofList chars, ?_⟩
    rw [String.toList_ofList, escape_of_unescape?_eq_some h hchars]

/-- Segments are read one by one. -/
theorem mapM_token_eq_ok_iff {segments : List (List Char)}
    (h : ∀ segment ∈ segments, '/' ∉ segment) {tokens : Pointer} :
    segments.mapM token = .ok tokens ↔
      segments = tokens.map fun name => escape name.toList := by
  constructor
  · intro hread
    induction segments generalizing tokens with
    | nil =>
      obtain rfl : [] = tokens := Except.ok.inj hread
      rfl
    | cons first rest ih =>
      obtain ⟨hfirst, hrest⟩ := List.forall_mem_cons.mp h
      rw [List.mapM_cons] at hread
      cases hname : token first with
      | error fault => simp [hname, bind, Except.bind] at hread
      | ok name =>
        cases hnames : rest.mapM token with
        | error fault => simp [hname, hnames, bind, Except.bind] at hread
        | ok names =>
          obtain rfl : name :: names = tokens := by
            simpa [hname, hnames, bind, Except.bind, pure, Except.pure] using hread
          rw [List.map_cons, ← ih hrest hnames, ← (token_eq_ok_iff hfirst).mp hname]
  · rintro rfl
    rw [List.mapM_map]
    have hread := mapM_token_escape tokens
    rwa [List.mapM_map] at hread

/-! ### Texts -/

/-- A text that starts with a slash is read segment by segment. -/
theorem parse_of_slash {text : String} {rest : List Char} (h : text.toList = '/' :: rest) :
    parse text = (rest.splitOn '/').mapM token := by
  rw [parse, h]
  simp

/-- **A text is read as the pointer that is written so**, and as no other. -/
theorem parse_eq_ok_iff {text : String} {tokens : Pointer} :
    parse text = .ok tokens ↔ render tokens = text := by
  constructor
  · intro hread
    cases htext : text.toList with
    | nil =>
      obtain rfl : text = "" := String.toList_injective htext
      obtain rfl : [] = tokens := Except.ok.inj hread
      rfl
    | cons c rest =>
      by_cases hc : c = '/'
      · subst hc
        rw [parse_of_slash htext,
          mapM_token_eq_ok_iff fun _ => slash_notMem_of_mem_splitOn] at hread
        have hjoin : ['/'].intercalate (rest.splitOn '/') = rest := List.intercalate_splitOn '/'
        apply String.toList_injective
        rw [htext, render, String.toList_ofList, ← hjoin,
          cons_intercalate (List.splitOn_ne_nil '/' rest), hread, List.flatMap_map]
      · rw [parse, htext] at hread
        simp [hc] at hread
  · rintro rfl
    exact parse_render tokens

/-- A text can be read if and only if it is empty, or it starts with a slash and its tildes are
followed by digits. -/
theorem exists_parse_iff (text : String) : (∃ tokens, parse text = .ok tokens) ↔
    text = "" ∨ text.toList.head? = some '/' ∧ Escaped text.toList := by
  cases htext : text.toList with
  | nil =>
    obtain rfl : text = "" := String.toList_injective htext
    simp [parse]
  | cons c rest =>
    have hne : text ≠ "" := by
      rintro rfl
      simp at htext
    by_cases hc : c = '/'
    · subst hc
      have hsegments : ∀ segment ∈ rest.splitOn '/', '/' ∉ segment :=
        fun _ => slash_notMem_of_mem_splitOn
      calc (∃ tokens, parse text = .ok tokens)
          ↔ ∃ tokens : Pointer, rest.splitOn '/' = tokens.map fun name => escape name.toList := by
            simp only [parse_of_slash htext, mapM_token_eq_ok_iff hsegments]
        _ ↔ ∀ segment ∈ rest.splitOn '/', ∃ name : String, escape name.toList = segment := by
            have hrange := Set.range_list_map fun name : String => escape name.toList
            simpa [eq_comm] using Set.ext_iff.mp hrange (rest.splitOn '/')
        _ ↔ ∀ segment ∈ rest.splitOn '/', Escaped segment :=
            forall₂_congr fun segment hmem => exists_escape_iff (hsegments segment hmem)
        _ ↔ Escaped rest := by
            rw [← escaped_intercalate_iff, List.intercalate_splitOn]
        _ ↔ text = "" ∨ ('/' :: rest).head? = some '/' ∧ Escaped ('/' :: rest) := by
            simp [hne, escaped_cons_iff]
    · have hfails : ¬ ∃ tokens, parse text = .ok tokens := by
        rw [parse, htext]
        simp [hc]
      simp [hfails, hne, hc]

/-- **Pointers and their texts.** The text of a pointer is made of its tokens, each behind a slash
and with its tildes and then its slashes replaced. Any tokens can be written so, and a text is read
as the pointer whose text it is and as no other: so what was written is read back, and what was read
is written as it was. The texts that can be read are the empty one and those that start with a slash
and have every tilde followed by `0` or `1`. -/
theorem texts_of_pointers :
    (∀ tokens : Pointer, (render tokens).toList = tokens.flatMap fun name =>
      '/' :: replaceAll '/' ['~', '1'] (replaceAll '~' ['~', '0'] name.toList)) ∧
    (∀ (text : String) (tokens : Pointer), parse text = .ok tokens ↔ render tokens = text) ∧
    ∀ text : String, (∃ tokens, parse text = .ok tokens) ↔
      text = "" ∨ text.toList.head? = some '/' ∧ Escaped text.toList := by
  refine ⟨?_, fun text tokens => parse_eq_ok_iff, exists_parse_iff⟩
  intro tokens
  rw [render, String.toList_ofList]
  simp only [escape_eq_replaceAll]

/-- Adjacent escapes and empty tokens. -/
example : parse "/a~01b//~1" = .ok ["a~1b", "", "/"] ∧ render ["a~1b", "", "/"] = "/a~01b//~1" :=
  ⟨rfl, rfl⟩

end Pointer

end Reactive
