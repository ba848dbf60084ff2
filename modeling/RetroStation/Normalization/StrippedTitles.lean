import RetroStation.Normalization.NestedTitles

/-! # Titles stripped of their groups

Of a title with balanced brackets the outermost groups should go, and a title with unbalanced
brackets should stay. Groups are looked for one by one, so a complete group goes from an
unbalanced title too, and a group that is empty or nested too deep stays.
-/

namespace RetroStation.Normalization

open Text Nest

/-- What becomes of a title when its groups are stripped, up to runs of blanks: it is not lost,
with unbalanced brackets it is as before, and with balanced brackets its outermost groups are
gone but for part numbers, unless nothing else is there. -/
structure GroupsStripped (unicode : Unicode) (title stripped : List Char) : Prop where
  kept : title ≠ [] → stripped ≠ []
  unbalanced : (∀ nest : Nest, nest.text ≠ title) → words stripped = words title
  balanced : ∀ nest : Nest, nest.text = title → words stripped =
    if words (nest.kept unicode) = [] then words title else words (nest.kept unicode)

/-- A group and the blanks before it, taken whole; it is no part number. -/
def IsGroup (unicode : Unicode) (group : List Char) : Prop :=
  group ≠ [] ∧ bracketGroup none group = group.length ∧
    isPartNumber unicode (groupContent group) = false

/-- With unbalanced brackets the title has no group but part numbers, or nothing but groups. With
balanced brackets its outermost groups are shallow, or nothing is in its brackets nor outside. -/
def Strippable (unicode : Unicode) (title : List Char) : Prop :=
  ((∀ nest : Nest, nest.text ≠ title) →
    (∀ before group after, title = before ++ group ++ after → ¬IsGroup unicode group) ∨
      ∃ (groups : List (List Char)) (blanks : List Char), title = groups.flatten ++ blanks ∧
        (∀ group ∈ groups, IsGroup unicode group) ∧ ∀ char ∈ blanks, isSpace char) ∧
  ∀ nest : Nest, nest.text = title → nest.Shallow ∨ nest.Hollow

variable {unicode : Unicode} {title text group : List Char}

theorem words_squeeze (text : List Char) : words (squeeze text) = words text :=
  words_joinWords_of_isWord fun _ => isWord_of_mem_words

theorem words_stripBracketedGroups : words (stripBracketedGroups unicode title) =
    if words (withoutGroups unicode title) = [] then words title
    else words (withoutGroups unicode title) := by
  have hempty : squeeze (withoutGroups unicode title) = [] ↔
      words (withoutGroups unicode title) = [] := by
    rw [squeeze_eq_nil_iff, words_eq_nil_iff]
  unfold stripBracketedGroups
  dsimp only
  by_cases hnone : words (withoutGroups unicode title) = []
  · rw [if_pos hnone, if_pos (hempty.mpr hnone)]
  · rw [if_neg hnone, if_neg (mt hempty.mp hnone), words_squeeze]

theorem weight_eq_zero_iff : weight text = 0 ↔ words text = [] := by
  rw [weight, List.length_eq_zero_iff, List.filter_eq_nil_iff, words_eq_nil_iff]
  simp

/-! ## Balanced titles -/

theorem balanced_iff (nest : Nest) : words (stripBracketedGroups unicode nest.text) =
      (if words (nest.kept unicode) = [] then words nest.text else words (nest.kept unicode)) ↔
    nest.Shallow ∨ nest.Hollow := by
  rw [words_stripBracketedGroups]
  constructor
  · intro hwords
    by_contra hneither
    obtain ⟨hdeep, hsolid⟩ := not_or.mp hneither
    have hmore := (@weight_kept_le unicode nest).2 hdeep
    have hsome : words (withoutGroups unicode nest.text) ≠ [] := by
      rw [ne_eq, ← weight_eq_zero_iff]
      omega
    rw [if_neg hsome] at hwords
    split at hwords
    next hnone =>
      have hless := @weight_withoutGroups_lt unicode nest (weight_eq_zero_iff.mpr hnone) hsolid
      have hsame := weight_eq_of_words hwords
      omega
    next =>
      have hsame := weight_eq_of_words hwords
      omega
  · rintro (hshallow | hhollow)
    · rw [show words (withoutGroups unicode nest.text) = words (nest.kept unicode) from
        words_withoutGroups_of_shallow hshallow []]
    · rw [words_kept_of_hollow hhollow, if_pos rfl,
        show words (withoutGroups unicode nest.text) = words nest.text from
          words_withoutGroups_of_hollow hhollow [], ite_eq_right_iff]
      exact fun hnone => hnone.symm ▸ rfl

/-! ## Unbalanced titles -/

section

variable {rest : List Char}

theorem matched_alone (hsome : group ≠ [])
    (hmatch : bracketGroup none (group ++ rest) = group.length) :
    bracketGroup none group = group.length := by
  have halone := bracketGroup_prefix hmatch (by simpa using hsome) []
  rwa [List.take_left, List.append_nil] at halone

theorem IsGroup.matched (hgroup : IsGroup unicode group) (rest : List Char) :
    bracketGroup none (group ++ rest) = group.length := by
  have hmatch := bracketGroup_prefix hgroup.2.1 (by simpa using hgroup.1) rest
  rwa [List.take_length] at hmatch

/-- A match that is no part number is a group, and nothing is left of it. -/
theorem isGroup_of_match (hsome : group ≠ [])
    (hmatch : bracketGroup none (group ++ rest) = group.length)
    (hpart : ¬isPartNumber unicode (groupContent group)) : IsGroup unicode group :=
  ⟨hsome, matched_alone hsome hmatch, by simpa using hpart⟩

end

/-- Without a group nothing is removed. -/
theorem withoutGroups_of_no_group
    (hnone : ∀ before group after, text = before ++ group ++ after → ¬IsGroup unicode group) :
    withoutGroups unicode text = text := by
  induction text using scan_induction with
  | hnil => rfl
  | hkept char text hmatch ih =>
      rw [withoutGroups_cons hmatch, ih fun before group after htext => hnone (char :: before) group
        after (by rw [htext]; rfl)]
  | hgroup blanks kind content rest hblanks hmatch ih =>
      have hsome : blanks ++ kind.opening :: (content ++ [kind.closing]) ≠ [] := by simp
      have hpart : isPartNumber unicode (groupContent
          (blanks ++ kind.opening :: (content ++ [kind.closing]))) := by
        by_contra hpart
        exact hnone [] _ rest rfl (isGroup_of_match hsome hmatch hpart)
      rw [withoutGroups_append hsome hmatch, replaceGroup, if_pos hpart,
        ih fun before group after htext => hnone
          (blanks ++ kind.opening :: (content ++ [kind.closing]) ++ before) group after (by
            simp [htext])]

theorem weight_withoutGroups_text_le : weight (withoutGroups unicode text) ≤ weight text := by
  induction text using scan_induction with
  | hnil => exact Nat.le_refl _
  | hkept char text hmatch ih =>
      rw [withoutGroups_cons hmatch, weight_cons, weight_cons char text]
      omega
  | hgroup blanks kind content rest hblanks hmatch ih =>
      rw [withoutGroups_append (by simp) hmatch, weight_append, weight_append]
      unfold replaceGroup
      split
      next => omega
      next =>
        change 0 + _ ≤ _
        omega

/-- A title is nothing without its groups exactly when it is groups in a row. -/
theorem words_withoutGroups_eq_nil_iff : words (withoutGroups unicode text) = [] ↔
    ∃ (groups : List (List Char)) (blanks : List Char), text = groups.flatten ++ blanks ∧
      (∀ group ∈ groups, IsGroup unicode group) ∧ ∀ char ∈ blanks, isSpace char := by
  constructor
  · intro hnone
    induction text using scan_induction with
    | hnil => exact ⟨[], [], rfl, List.forall_mem_nil _, List.forall_mem_nil _⟩
    | hkept char text hmatch ih =>
        rw [withoutGroups_cons hmatch, words_eq_nil_iff, List.forall_mem_cons,
          ← words_eq_nil_iff] at hnone
        obtain ⟨groups, blanks, rfl, hgroups, hblanks⟩ := ih hnone.2
        cases groups with
        | nil =>
            exact ⟨[], char :: blanks, rfl, hgroups, List.forall_mem_cons.mpr ⟨hnone.1, hblanks⟩⟩
        | cons group groups =>
            -- the match would have started at the blank
            have hgroup := hgroups group List.mem_cons_self
            have hlength := List.length_pos_iff.mpr hgroup.1
            rw [List.flatten_cons, List.append_assoc, bracketGroup_blank hnone.1,
              hgroup.matched, if_neg (by omega)] at hmatch
            cases hmatch
    | hgroup blanks kind content rest hblanks hmatch ih =>
        have hsome : blanks ++ kind.opening :: (content ++ [kind.closing]) ≠ [] := by simp
        rw [withoutGroups_append hsome hmatch, ← weight_eq_zero_iff, weight_append] at hnone
        have hpart : ¬isPartNumber unicode (groupContent
            (blanks ++ kind.opening :: (content ++ [kind.closing]))) := by
          intro hpart
          rw [replaceGroup, if_pos hpart, weight_append, weight_opening] at hnone
          omega
        obtain ⟨groups, after, rfl, hgroups, hafter⟩ := ih (weight_eq_zero_iff.mp (by omega))
        refine ⟨(blanks ++ kind.opening :: (content ++ [kind.closing])) :: groups, after, ?_, ?_,
          hafter⟩
        · rw [List.flatten_cons]
          exact (List.append_assoc _ _ _).symm
        · exact List.forall_mem_cons.mpr ⟨isGroup_of_match hsome hmatch hpart, hgroups⟩
  · rintro ⟨groups, blanks, rfl, hgroups, hblanks⟩
    induction groups with
    | nil =>
        have hle := @weight_withoutGroups_text_le unicode blanks
        rw [weight_eq_zero_iff.mpr (words_eq_nil_iff.mpr hblanks)] at hle
        exact weight_eq_zero_iff.mp (by simpa using hle)
    | cons group groups ih =>
        obtain ⟨hgroup, hgroups⟩ := List.forall_mem_cons.mp hgroups
        rw [List.flatten_cons, List.append_assoc, withoutGroups_append hgroup.1 (hgroup.matched _),
          replaceGroup, if_neg (by simp [hgroup.2.2]), List.singleton_append,
          words_cons_of_blank rfl]
        exact ih hgroups

/-! Inside a part number no group starts. -/

theorem bracketGroup_of_content {kind : Bracket} {content rest : List Char}
    (hplain : ∀ kind : Bracket, kind.opening ∉ content) :
    bracketGroup none (content ++ kind.closing :: rest) = 0 := by
  induction content with
  | nil =>
      refine bracketGroup_of_not_opening (by cases kind <;> rfl) fun other => ?_
      cases kind <;> cases other <;> decide
  | cons char content ih =>
      have hrest := ih fun kind hmem => hplain kind (List.mem_cons_of_mem _ hmem)
      cases hword : isSpace char with
      | true => rw [List.cons_append, bracketGroup_blank hword, hrest, if_pos rfl]
      | false =>
          exact bracketGroup_of_not_opening hword fun kind heq =>
            hplain kind (heq ▸ List.mem_cons_self)

theorem suffix_of_content {kind : Bracket} {content rest start : List Char}
    (hplain : ∀ kind : Bracket, kind.opening ∉ content)
    (hstart : start <:+ content ++ kind.closing :: rest) :
    bracketGroup none start = 0 ∨ start <:+ rest := by
  induction content with
  | nil =>
      rcases List.suffix_cons_iff.mp hstart with rfl | hrest
      · exact .inl (@bracketGroup_of_content kind [] rest hplain)
      · exact .inr hrest
  | cons char content ih =>
      rcases List.suffix_cons_iff.mp hstart with rfl | hrest
      · exact .inl (@bracketGroup_of_content kind (char :: content) rest hplain)
      · exact ih (fun kind hmem => hplain kind (List.mem_cons_of_mem _ hmem)) hrest

theorem suffix_of_blanks {blanks body start : List Char} {char : Char}
    (hstart : start <:+ blanks ++ char :: body) :
    (∃ fewer, fewer ⊆ blanks ∧ start = fewer ++ char :: body) ∨ start <:+ body := by
  induction blanks with
  | nil =>
      rcases List.suffix_cons_iff.mp hstart with rfl | hbody
      · exact .inl ⟨[], List.nil_subset _, rfl⟩
      · exact .inr hbody
  | cons blank blanks ih =>
      rcases List.suffix_cons_iff.mp hstart with rfl | hrest
      · exact .inl ⟨blank :: blanks, List.Subset.refl _, rfl⟩
      · exact (ih hrest).imp_left fun ⟨fewer, hfewer, heq⟩ =>
          ⟨fewer, List.Subset.trans hfewer (List.subset_cons_self _ _), heq⟩

/-- A group that is no part number is removed, or something before it is that covers it. -/
theorem weight_withoutGroups_text_lt {before after : List Char}
    (hgroup : IsGroup unicode group) (htext : text = before ++ group ++ after) :
    weight (withoutGroups unicode text) < weight text := by
  have hlength := List.length_pos_iff.mpr hgroup.1
  -- Along the regex's own scan: a kept character, or a group it matches here.
  induction text using scan_induction generalizing before with
  | hnil => simp [hgroup.1] at htext
  | hkept char text hmatch ih =>
      rw [withoutGroups_cons hmatch, weight_cons, weight_cons char text]
      cases before with
      | nil =>
          rw [htext, List.nil_append, hgroup.matched] at hmatch
          omega
      | cons head before =>
          have hless := @ih before (List.cons.inj htext).2
          omega
  | hgroup blanks kind content rest hblanks hmatch ih =>
      have hsome : blanks ++ kind.opening :: (content ++ [kind.closing]) ≠ [] := by simp
      rw [withoutGroups_append hsome hmatch, weight_append, weight_append _ rest, replaceGroup]
      split
      next hpart =>
        rw [groupContent_eq hblanks] at hpart
        have hplain : ∀ kind : Bracket, kind.opening ∉ content := fun kind hmem =>
          opening_not_mem_of_isPartNumber hpart (mem_strip hmem Bracket.isSpace_opening)
        have htitle : blanks ++ kind.opening :: (content ++ kind.closing :: rest) =
            before ++ (group ++ after) := by
          rw [← List.append_assoc before, ← htext]
          simp
        have hstart : group ++ after <:+ blanks ++
          kind.opening :: (content ++ kind.closing :: rest) :=
          ⟨before, htitle.symm⟩
        rcases suffix_of_blanks hstart with ⟨fewer, hfewer, heq⟩ | hinside
        · -- the group would be the part number without some of its blanks
          have hwhole : bracketGroup none (blanks ++ kind.opening ::
              (content ++ kind.closing :: rest)) = blanks.length + content.length + 2 := by
            simpa [Nat.add_assoc] using hmatch
          have hfewerMatch := hgroup.matched after
          rw [heq, bracketGroup_blanks fun char hchar => hblanks char (hfewer hchar)] at hfewerMatch
          rw [bracketGroup_blanks hblanks] at hwhole
          have hsize : group.length =
              (fewer ++ kind.opening :: (content ++ [kind.closing])).length := by
            simp only [List.length_append, List.length_cons, List.length_nil]
            split at hwhole <;> split at hfewerMatch <;> omega
          have hparts : group ++ after =
              (fewer ++ kind.opening :: (content ++ [kind.closing])) ++ rest := by
            simpa using heq
          have hsame := (List.append_inj hparts hsize).1
          have hnot := hgroup.2.2
          rw [hsame, groupContent_eq fun char hchar => hblanks char (hfewer hchar), hpart] at hnot
          cases hnot
        · rcases suffix_of_content hplain hinside with hnone | ⟨more, hmore⟩
          · rw [hgroup.matched] at hnone
            omega
          · have hless := @ih more (by rw [← hmore, List.append_assoc])
            omega
      next =>
        have hle := @weight_withoutGroups_text_le unicode rest
        rw [weight_append, weight_group]
        change 0 + _ < _
        omega

theorem unbalanced_iff : words (stripBracketedGroups unicode title) = words title ↔
    (∀ before group after, title = before ++ group ++ after → ¬IsGroup unicode group) ∨
      ∃ (groups : List (List Char)) (blanks : List Char), title = groups.flatten ++ blanks ∧
        (∀ group ∈ groups, IsGroup unicode group) ∧ ∀ char ∈ blanks, isSpace char := by
  rw [words_stripBracketedGroups, ← words_withoutGroups_eq_nil_iff]
  constructor
  · intro hwords
    by_contra hneither
    obtain ⟨hgroup, hsome⟩ := not_or.mp hneither
    push Not at hgroup
    obtain ⟨before, group, after, htext, hgroup⟩ := hgroup
    have hless := weight_withoutGroups_text_lt hgroup htext
    rw [if_neg hsome] at hwords
    have hsame := weight_eq_of_words hwords
    omega
  · rintro (hnone | hempty)
    · rw [withoutGroups_of_no_group hnone]
      exact ite_eq_right_iff.mpr fun _ => rfl
    · rw [if_pos hempty]

/-- Stripping does what it says exactly for the strippable titles. -/
theorem groups_stripped (unicode : Unicode) (title : List Char) :
    GroupsStripped unicode title (stripBracketedGroups unicode title) ↔
      Strippable unicode title := by
  have hkept : title ≠ [] → stripBracketedGroups unicode title ≠ [] := by
    intro hsome
    unfold stripBracketedGroups
    dsimp only
    split
    next => exact hsome
    next hbase => exact hbase
  -- Unbalanced and balanced titles apart: what is asked of each is different.
  constructor
  · intro hstripped
    refine ⟨fun hnone => unbalanced_iff.mp (hstripped.unbalanced hnone), ?_⟩
    rintro nest rfl
    exact (balanced_iff nest).mp (hstripped.balanced nest rfl)
  · rintro ⟨hunbalanced, hbalanced⟩
    refine ⟨hkept, fun hnone => unbalanced_iff.mpr (hunbalanced hnone), ?_⟩
    rintro nest rfl
    exact (balanced_iff nest).mpr (hbalanced nest rfl)

/-! A balanced title has as many brackets that open as that close. -/

theorem count_text (nest : Nest) : nest.text.count '(' = nest.text.count ')' := by
  induction nest with
  | nil => rfl
  | plain char hplain more ih =>
      have hround : char ≠ '(' ∧ char ≠ ')' := hplain .round
      rw [text, List.count_cons_of_ne hround.1, List.count_cons_of_ne hround.2, ih]
  | group kind content more ihContent ihMore =>
      rw [text, List.count_cons, List.count_cons, List.count_append, List.count_append,
        List.count_cons, List.count_cons, ihContent, ihMore]
      cases kind <;> rfl

/-- The complete group goes from a title that is cut off in the next one. -/
theorem groups_stripped_cut_off : ¬GroupsStripped .ascii "Song (Live) (Edi".toList
    (stripBracketedGroups .ascii "Song (Live) (Edi".toList) := by
  intro hstripped
  have hnone : ∀ nest : Nest, nest.text ≠ "Song (Live) (Edi".toList := by
    intro nest heq
    have hcount := count_text nest
    rw [heq] at hcount
    exact absurd hcount (by decide)
  exact absurd (hstripped.unbalanced hnone) (by decide +kernel)

end RetroStation.Normalization
