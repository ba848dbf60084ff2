import RetroStation.Matching.ArtistSearch

/-! # Coalesced searches

Searching each truncated name once gives every artist the result it has alone.
-/

namespace RetroStation.Matching

open Library Effect

/-! ## Searches that may fail -/

section

variable {Item Value Error : Type}

/-- The failure of a computation, if it failed. -/
def failure? : Except Error Value → Option Error
  | .ok _ => none
  | .error error => some error

/-- A list of computations fails as the first of them that does. -/
theorem mapM_except {f : Item → Except Error Value} {value : Item → Value}
    (hvalue : ∀ item result, f item = .ok result → value item = result) (items : List Item) :
    items.mapM f = match items.findSome? fun item => failure? (f item) with
      | some error => .error error
      | none => .ok (items.map value) := by
  induction items with
  | nil => rfl
  | cons item rest ih =>
      rw [List.mapM_cons, ih, List.findSome?_cons]
      cases hitem : f item with
      | error error => rfl
      | ok result =>
          have hnone : failure? (Except.ok result : Except Error Value) = none := rfl
          rw [List.map_cons, hvalue item result hitem, hnone]
          cases rest.findSome? fun item => failure? (f item) <;> rfl

end

variable {texts : ArtistTexts} {thresholds : ArtistMatchThresholds} {client : ArtistClient}
  {rules : List MappingRule} {canonical : List CanonicalArtist} {artist : BroadcastArtist}
  {pending : List BroadcastArtist} {searchMap : SearchMap} {log : List String}

theorem outcome_searchArtist (name : String) : outcome (searchArtist client name) log =
    ((client name).mapError .http, log ++ [name]) := by
  unfold searchArtist
  rw [outcome_bind]
  change outcome _ (log ++ [name]) = _
  cases client name <;> rfl

/-! ## One artist -/

/-- What the second phase makes of an artist, if its search is live. -/
def deferringResult (texts : ArtistTexts) (thresholds : ArtistMatchThresholds)
    (client : ArtistClient) (artist : BroadcastArtist) : Except ArtistError ArtistSearchResult :=
  if isLikelyTruncated texts artist.originalName thresholds.broadcastNameMaxLen then
    ((client artist.originalName).mapError .http).map fun results =>
      (artistMatchOf thresholds results).getD deferredRetry
  else .ok deferredRetry

/-- The names a live search of the artist asks for. -/
def liveSearch (texts : ArtistTexts) (thresholds : ArtistMatchThresholds)
    (searchMap : Option SearchMap) (artist : BroadcastArtist) : List String :=
  if isLikelyTruncated texts artist.originalName thresholds.broadcastNameMaxLen ∧
      (searchMap.bind fun searched => searched.get? (texts.lower artist.originalName)) = none then
    [artist.originalName]
  else []

/-- A map that answers as MusicBrainz does. -/
def Sound (texts : ArtistTexts) (client : ArtistClient) (searchMap : SearchMap) : Prop :=
  ∀ name results, searchMap.get? (texts.lower name) = some results → client name = .ok results

theorem outcome_resolveDeferring (searchMap : Option SearchMap)
    (hsound : ∀ searched, searchMap = some searched → Sound texts client searched) :
    outcome (resolveDeferring texts thresholds client searchMap artist) log =
      ((deferringResult texts thresholds client artist).map some,
        log ++ liveSearch texts thresholds searchMap artist) := by
  have hresults : outcome (artistResultsOf texts client searchMap artist) log =
      ((client artist.originalName).mapError .http, log ++
        if (searchMap.bind fun searched => searched.get? (texts.lower artist.originalName)) = none
        then [artist.originalName] else []) := by
    unfold artistResultsOf
    split
    next results hfound =>
      obtain ⟨searched, hsearched, hget⟩ := Option.bind_eq_some_iff.mp hfound
      rw [hsound searched hsearched artist.originalName results hget, hfound]
      simp [Except.mapError]
    next hmissing => rw [outcome_searchArtist, if_pos hmissing]
  unfold resolveDeferring truncatedNameMb deferringResult liveSearch
  cases htruncated : isLikelyTruncated texts artist.originalName thresholds.broadcastNameMaxLen with
  | false => simp [Except.map]
  | true =>
      simp only [Bool.not_true, Bool.false_eq_true, if_false, if_true, true_and]
      rw [outcome_bind]
      unfold musicBrainzApi
      rw [outcome_bind, hresults]
      cases client artist.originalName with
      | error exc => rfl
      | ok results =>
          simp only [Except.mapError, Except.map, outcome_pure]
          cases artistMatchOf thresholds results <;> rfl

/-! ## The second phase -/

/-- An artist's result, if it has one. -/
def resultOr (result : Except ArtistError ArtistSearchResult) : ArtistSearchResult :=
  result.toOption.getD deferredRetry

theorem resultOr_ok {result : Except ArtistError ArtistSearchResult}
    {value : ArtistSearchResult} (hok : result = .ok value) : resultOr result = value := by
  rw [hok]
  rfl

/-- The artist whose search fails first ends the phase with its failure. -/
theorem outcome_runMbOrDeferredPhase (hsound : Sound texts client searchMap)
    (unresolved : List BroadcastArtist) (log : List String) : ∃ calls,
    outcome (runMbOrDeferredPhase texts thresholds client searchMap unresolved) log =
      (match unresolved.findSome? fun artist =>
          failure? (deferringResult texts thresholds client artist) with
        | some error => .error error
        | none => .ok ((unresolved.map fun artist => (artist.id,
            resultOr (deferringResult texts thresholds client artist))).foldl
              (fun out entry => out.set entry.1 entry.2) .empty), log ++ calls) ∧
      ∀ name ∈ calls, ∃ artist ∈ unresolved, name = artist.originalName ∧
        isLikelyTruncated texts name thresholds.broadcastNameMaxLen = true ∧
          searchMap.get? (texts.lower name) = none := by
  unfold runMbOrDeferredPhase
  generalize (Dict.empty : Dict Uuid ArtistSearchResult) = out
  induction unresolved generalizing out log with
  | nil => exact ⟨[], by simp, by simp⟩
  | cons artist rest ih =>
      have hlive : ∀ name ∈ liveSearch texts thresholds (some searchMap) artist,
          name = artist.originalName ∧
            isLikelyTruncated texts name thresholds.broadcastNameMaxLen = true ∧
              searchMap.get? (texts.lower name) = none := by
        intro name hname
        unfold liveSearch at hname
        split at hname
        next hsearched =>
          obtain rfl := List.mem_singleton.mp hname
          exact ⟨rfl, hsearched⟩
        · cases hname
      rw [List.foldlM_cons, outcome_bind, outcome_bind,
        outcome_resolveDeferring (some searchMap) fun searched heq => Option.some.inj heq ▸ hsound]
      cases hresult : deferringResult texts thresholds client artist with
      | error error =>
          refine ⟨liveSearch texts thresholds (some searchMap) artist, ?_, fun name hname =>
            ⟨artist, List.mem_cons_self, hlive name hname⟩⟩
          rw [List.findSome?_cons, hresult]
          rfl
      | ok result =>
          obtain ⟨calls, houtcome, hcalls⟩ := ih
            (log ++ liveSearch texts thresholds (some searchMap) artist) (out.set artist.id result)
          refine ⟨liveSearch texts thresholds (some searchMap) artist ++ calls, ?_, ?_⟩
          · have hnone : failure? (Except.ok result : Except ArtistError ArtistSearchResult) =
              none :=
              rfl
            have hvalue : resultOr (Except.ok result) = result := rfl
            rw [List.findSome?_cons, hresult, hnone, List.map_cons, List.foldl_cons,
              hresult, hvalue]
            simp only [Except.map, outcome_pure]
            rw [houtcome, List.append_assoc]
          · intro name hname
            rcases List.mem_append.mp hname with hname | hname
            · exact ⟨artist, List.mem_cons_self, hlive name hname⟩
            · obtain ⟨other, hother, hsame⟩ := hcalls name hname
              exact ⟨other, List.mem_cons_of_mem _ hother, hsame⟩

/-! ## The first phase -/

theorem runLocalPhase_eq : runLocalPhase texts thresholds rules canonical pending =
    ((pending.filterMap fun artist =>
        (resolveLocally texts thresholds rules canonical artist).map fun result =>
          (artist.id, result)).foldl (fun resolved entry => resolved.set entry.1 entry.2) .empty,
      pending.filter fun artist =>
        (resolveLocally texts thresholds rules canonical artist).isNone) := by
  induction pending using List.reverseRecOn with
  | nil => rfl
  | append_singleton pending artist ih =>
      unfold runLocalPhase at ih ⊢
      rw [List.foldl_append, ih, List.filterMap_append, List.filter_append, List.foldl_append]
      cases hlocal : resolveLocally texts thresholds rules canonical artist with
      | some result => simp [hlocal]
      | none => simp [hlocal]

/-! ## The searches -/

theorem representative_mem {originals : List String} (hsome : originals ≠ []) :
    representative originals ∈ originals := by
  have hperm := List.perm_insertionSort (· ≤ ·) originals
  unfold representative
  cases hsorted : originals.insertionSort (· ≤ ·) with
  | nil =>
      rw [hsorted] at hperm
      exact absurd hperm.symm.eq_nil hsome
  | cons first rest =>
      rw [hsorted] at hperm
      exact hperm.mem_iff.mp List.mem_cons_self

/-- The spellings of each name that is searched. -/
def bucketsOf (texts : ArtistTexts) (truncated : List BroadcastArtist) :
    Dict String (List String) :=
  Dict.group texts.lower (truncated.map BroadcastArtist.originalName)

/-- What the searches of the names answer. -/
def searchedMap (client : ArtistClient) (buckets : Dict String (List String)) : SearchMap :=
  (buckets.entries.filterMap fun bucket =>
    (client (representative bucket.2)).toOption.map fun results => (bucket.1, results)).foldl
      (fun found entry => found.set entry.1 entry.2) .empty

theorem outcome_searchBucket (found : SearchMap) (bucket : String × List String)
    (log : List String) :
    outcome (searchBucket client found bucket) log =
      (.ok (((client (representative bucket.2)).toOption.map fun results =>
          (bucket.1, results)).elim found fun entry => found.set entry.1 entry.2),
        log ++ [representative bucket.2]) := by
  unfold searchBucket
  rw [outcome_tryCatch, outcome_bind, outcome_searchArtist]
  cases client (representative bucket.2) <;> rfl

theorem outcome_coalesceArtistSearches (truncated : List BroadcastArtist) (log : List String) :
    outcome (coalesceArtistSearches texts client truncated) log =
      (.ok (searchedMap client (bucketsOf texts truncated), (bucketsOf texts truncated).size),
        log ++ (bucketsOf texts truncated).entries.map fun bucket => representative bucket.2) := by
  have hfold : ∀ (buckets : List (String × List String)) (found : SearchMap) (log : List String),
      outcome (buckets.foldlM (searchBucket client) found : ArtistM SearchMap) log =
        (.ok ((buckets.filterMap fun bucket => (client (representative bucket.2)).toOption.map
          fun results => (bucket.1, results)).foldl (fun found entry => found.set entry.1 entry.2)
            found), log ++ buckets.map fun bucket => representative bucket.2) := by
    intro buckets
    induction buckets with
    | nil => simp
    | cons bucket rest ih =>
        intro found log
        rw [List.foldlM_cons, outcome_bind, outcome_searchBucket, List.filterMap_cons]
        dsimp only
        rw [ih, List.map_cons, List.append_assoc, List.singleton_append]
        cases client (representative bucket.2) <;> rfl
  unfold coalesceArtistSearches searchedMap
  dsimp only
  rw [outcome_bind, hfold]
  rfl

/-! ## What the searches find -/

section

variable (hcase : ∀ first second : String, texts.lower first = texts.lower second →
  client first = client second) {truncated : List BroadcastArtist}

theorem lower_representative {bucket : String × List String}
    (hbucket : bucket ∈ (bucketsOf texts truncated).entries) :
    texts.lower (representative bucket.2) = bucket.1 ∧
      ∃ artist ∈ truncated, representative bucket.2 = artist.originalName := by
  obtain ⟨hmembers, hsome⟩ := Dict.mem_group_entries.mp hbucket
  have hmem := representative_mem hsome
  rw [hmembers] at hmem
  obtain ⟨hname, hkey⟩ := List.mem_filter.mp hmem
  obtain ⟨artist, hartist, hsame⟩ := List.mem_map.mp hname
  rw [← hmembers] at hkey hsame
  exact ⟨by simpa using hkey, artist, hartist, hsame.symm⟩

theorem get?_searchedMap (buckets : Dict String (List String)) (key : String) :
    (searchedMap client buckets).get? key =
      ((buckets.entries.filterMap fun bucket => (client (representative bucket.2)).toOption.map
        fun results => (bucket.1, results)).find? fun entry => entry.1 = key).map Prod.snd := by
  unfold searchedMap
  rw [Dict.get?_setAll, Dict.get?_empty, Option.or_none]
  have hkeys : ∀ entries : List (String × List String),
      ((entries.filterMap fun bucket => (client (representative bucket.2)).toOption.map
        fun results => (bucket.1, results)).map Prod.fst).Sublist (entries.map Prod.fst) := by
    intro entries
    induction entries with
    | nil => exact .slnil
    | cons bucket rest ih =>
        rw [List.filterMap_cons]
        cases (client (representative bucket.2)).toOption with
        | none => exact ih.cons _
        | some results => exact ih.cons_cons _
  exact buckets.nodup.sublist (hkeys buckets.entries)

include hcase

theorem sound_searchedMap :
    Sound texts client (searchedMap client (bucketsOf texts truncated)) := by
  intro name results hget
  rw [get?_searchedMap] at hget
  obtain ⟨entry, hfound, rfl⟩ := Option.map_eq_some_iff.mp hget
  have hkey : entry.1 = texts.lower name := by simpa using List.find?_some hfound
  obtain ⟨bucket, hbucket, hentry⟩ := List.mem_filterMap.mp (List.mem_of_find?_eq_some hfound)
  obtain ⟨results, hresults, rfl⟩ := Option.map_eq_some_iff.mp hentry
  rw [hcase name (representative bucket.2)
    (hkey.symm.trans (lower_representative hbucket).1.symm)]
  cases hclient : client (representative bucket.2) with
  | error exc => simp [hclient, Except.toOption] at hresults
  | ok found => simpa [hclient, Except.toOption] using hresults

/-- A name whose search succeeds is in the map. -/
theorem searchedMap_full {artist : BroadcastArtist} (hartist : artist ∈ truncated)
    {results : List MbArtistResult} (hok : client artist.originalName = .ok results) :
    (searchedMap client (bucketsOf texts truncated)).get? (texts.lower artist.originalName) ≠
      none := by
  have hkey : texts.lower artist.originalName ∈ (bucketsOf texts truncated).keys :=
    Dict.mem_group_keys.mpr ⟨_, List.mem_map_of_mem hartist, rfl⟩
  obtain ⟨bucket, hbucket, hsame⟩ := List.mem_map.mp hkey
  have hclient : client (representative bucket.2) = .ok results := by
    rw [← hok]
    exact hcase _ _ ((lower_representative hbucket).1.trans hsame)
  rw [get?_searchedMap]
  intro hnone
  rw [Option.map_eq_none_iff, List.find?_eq_none] at hnone
  refine hnone (bucket.1, results) (List.mem_filterMap.mpr ⟨bucket, hbucket, ?_⟩) (by
    simpa using hsame)
  rw [hclient]
  rfl

end

/-! ## A playlist's artists -/

/-- What an artist is alone. -/
def artistAlone (texts : ArtistTexts) (thresholds : ArtistMatchThresholds) (client : ArtistClient)
    (rules : List MappingRule) (canonical : List CanonicalArtist) (artist : BroadcastArtist) :
    Except ArtistError ArtistSearchResult :=
  match resolveLocally texts thresholds rules canonical artist with
  | some result => .ok result
  | none => deferringResult texts thresholds client artist

theorem outcome_resolveAlone : ∃ calls,
    outcome (resolveAlone texts thresholds client rules canonical artist) log =
      (artistAlone texts thresholds client rules canonical artist, log ++ calls) := by
  unfold resolveAlone artistAlone
  cases resolveLocally texts thresholds rules canonical artist with
  | some result => exact ⟨[], by simp⟩
  | none =>
      refine ⟨liveSearch texts thresholds none artist, ?_⟩
      dsimp only
      rw [outcome_bind, outcome_resolveDeferring none fun searched hsome => by cases hsome]
      cases deferringResult texts thresholds client artist <;> rfl

theorem outcome_mapM_resolveAlone (pending : List BroadcastArtist) (log : List String) :
    (outcome (pending.mapM (resolveAlone texts thresholds client rules canonical)) log).1 =
      pending.mapM (artistAlone texts thresholds client rules canonical) := by
  induction pending generalizing log with
  | nil => rfl
  | cons artist rest ih =>
      obtain ⟨calls, houtcome⟩ := @outcome_resolveAlone texts thresholds client rules canonical
        artist log
      rw [List.mapM_cons, List.mapM_cons, outcome_bind, houtcome]
      cases artistAlone texts thresholds client rules canonical artist with
      | error error => rfl
      | ok result =>
          dsimp only
          rw [outcome_bind]
          have hrest := ih (log ++ calls)
          generalize outcome (rest.mapM (resolveAlone texts thresholds client rules canonical))
            (log ++ calls) = done at hrest
          obtain ⟨answer, later⟩ := done
          dsimp only at hrest
          subst hrest
          cases rest.mapM (artistAlone texts thresholds client rules canonical) <;> rfl

/-- Only artists that are not resolved locally can fail. -/
theorem findSome?_unresolved :
    (pending.filter fun artist =>
      (resolveLocally texts thresholds rules canonical artist).isNone).findSome? (fun artist =>
        failure? (deferringResult texts thresholds client artist)) =
      pending.findSome? fun artist =>
        failure? (artistAlone texts thresholds client rules canonical artist) := by
  induction pending with
  | nil => rfl
  | cons artist rest ih =>
      cases hlocal : resolveLocally texts thresholds rules canonical artist with
      | some result =>
          have halone : artistAlone texts thresholds client rules canonical artist =
            .ok result := by
            unfold artistAlone
            rw [hlocal]
          have hnone : failure? (Except.ok result : Except ArtistError ArtistSearchResult) = none :=
            rfl
          rw [List.filter_cons_of_neg (by simp [hlocal]), ih, List.findSome?_cons, halone, hnone]
      | none =>
          have halone : artistAlone texts thresholds client rules canonical artist =
              deferringResult texts thresholds client artist := by
            unfold artistAlone
            rw [hlocal]
          rw [List.filter_cons_of_pos (by simp [hlocal]), List.findSome?_cons, List.findSome?_cons,
            halone, ih]

/-- The results of both phases, once no search fails. -/
def mergedResults (texts : ArtistTexts) (thresholds : ArtistMatchThresholds)
    (client : ArtistClient) (rules : List MappingRule) (canonical : List CanonicalArtist)
    (pending : List BroadcastArtist) : Dict Uuid ArtistSearchResult :=
  (Dict.ofList ((pending.filter fun artist =>
      (resolveLocally texts thresholds rules canonical artist).isNone).map fun artist =>
        (artist.id, resultOr (deferringResult texts thresholds client artist)))).entries.foldl
    (fun results entry => results.set entry.1 entry.2)
    (Dict.ofList (pending.filterMap fun artist =>
      (resolveLocally texts thresholds rules canonical artist).map fun result =>
        (artist.id, result)))

theorem outcome_artistResults (hcase : ∀ first second : String,
      texts.lower first = texts.lower second → client first = client second)
    (pending : List BroadcastArtist) (log : List String) :
    let truncated := (pending.filter fun artist =>
      (resolveLocally texts thresholds rules canonical artist).isNone).filter fun artist =>
        isLikelyTruncated texts artist.originalName thresholds.broadcastNameMaxLen
    ∃ calls,
      outcome (artistResultsForPlaylist texts thresholds client rules canonical pending) log =
        (match pending.findSome? fun artist =>
            failure? (artistAlone texts thresholds client rules canonical artist) with
          | some error => .error error
          | none => .ok (mergedResults texts thresholds client rules canonical pending),
          log ++ (((bucketsOf texts truncated).entries.map fun bucket =>
            representative bucket.2) ++ calls)) ∧
        ∀ name ∈ calls, ∃ artist ∈ truncated, name = artist.originalName ∧
          ∀ results, client name ≠ .ok results := by
  intro truncated
  have hmap : ∀ log, outcome (buildTruncatedSearchMap texts thresholds client (pending.filter
      fun artist => (resolveLocally texts thresholds rules canonical artist).isNone)) log =
        (.ok (searchedMap client (bucketsOf texts truncated), (bucketsOf texts truncated).size),
          log ++ (bucketsOf texts truncated).entries.map fun bucket =>
            representative bucket.2) := by
    intro log
    unfold buildTruncatedSearchMap
    dsimp only
    split
    next hnone =>
      have hnil : truncated = [] := hnone
      rw [hnil]
      simp [bucketsOf, Dict.group, searchedMap, Dict.empty, Dict.size]
    · exact outcome_coalesceArtistSearches _ _
  unfold artistResultsForPlaylist
  rw [runLocalPhase_eq]
  dsimp only
  rw [outcome_bind, hmap]
  dsimp only
  rw [outcome_bind]
  obtain ⟨calls, houtcome, hcalls⟩ := outcome_runMbOrDeferredPhase
    (@sound_searchedMap texts client hcase truncated)
    (pending.filter fun artist => (resolveLocally texts thresholds rules canonical artist).isNone)
    (log ++ (bucketsOf texts truncated).entries.map fun bucket => representative bucket.2)
  refine ⟨calls, ?_, fun name hname => ?_⟩
  · rw [houtcome, findSome?_unresolved, List.append_assoc]
    cases pending.findSome? fun artist =>
      failure? (artistAlone texts thresholds client rules canonical artist) <;> rfl
  · obtain ⟨artist, hartist, rfl, htruncated, hmissing⟩ := hcalls name hname
    have hmem : artist ∈ truncated := List.mem_filter.mpr ⟨hartist, htruncated⟩
    exact ⟨artist, hmem, rfl, fun results hok =>
      searchedMap_full hcase hmem hok hmissing⟩

theorem get?_mergedResults (id : Uuid) :
    (mergedResults texts thresholds client rules canonical pending).get? id =
      ((Dict.ofList ((pending.filter fun artist =>
        (resolveLocally texts thresholds rules canonical artist).isNone).map fun artist =>
          (artist.id, resultOr (deferringResult texts thresholds client artist)))).get? id).or
      ((Dict.ofList (pending.filterMap fun artist =>
        (resolveLocally texts thresholds rules canonical artist).map fun result =>
          (artist.id, result))).get? id) := by
  unfold mergedResults
  rw [Dict.get?_setAll _ _ (Dict.nodup _)]
  rfl

section

variable (hids : (pending.map BroadcastArtist.id).Nodup)
include hids

theorem nodup_unresolved : (((pending.filter fun artist =>
    (resolveLocally texts thresholds rules canonical artist).isNone).map fun artist =>
      (artist.id, resultOr (deferringResult texts thresholds client artist))).map
        Prod.fst).Nodup := by
  rw [List.map_map]
  exact hids.sublist (List.filter_sublist.map _)

theorem nodup_resolved : ((pending.filterMap fun artist =>
    (resolveLocally texts thresholds rules canonical artist).map fun result =>
      (artist.id, result)).map Prod.fst).Nodup := by
  have hkeys : ((pending.filterMap fun artist =>
      (resolveLocally texts thresholds rules canonical artist).map fun result =>
        (artist.id, result)).map Prod.fst).Sublist (pending.map BroadcastArtist.id) := by
    clear hids
    induction pending with
    | nil => exact .slnil
    | cons artist rest ih =>
        rw [List.filterMap_cons]
        cases resolveLocally texts thresholds rules canonical artist with
        | none => exact ih.cons _
        | some result => exact ih.cons_cons _
  exact hids.sublist hkeys

/-- Each artist has the result it has alone. -/
theorem mergedResults_artist (hartist : artist ∈ pending) :
    (mergedResults texts thresholds client rules canonical pending).get? artist.id =
      some (resultOr (artistAlone texts thresholds client rules canonical artist)) := by
  rw [get?_mergedResults]
  unfold artistAlone
  cases hlocal : resolveLocally texts thresholds rules canonical artist with
  | none =>
      rw [(Dict.get?_ofList_eq_some (nodup_unresolved hids)).mpr (List.mem_map.mpr
        ⟨artist, List.mem_filter.mpr ⟨hartist, by simp [hlocal]⟩, rfl⟩)]
      rfl
  | some result =>
      have hnone : (Dict.ofList ((pending.filter fun artist =>
          (resolveLocally texts thresholds rules canonical artist).isNone).map fun artist =>
            (artist.id, resultOr (deferringResult texts thresholds client artist)))).get?
              artist.id = none := by
        rw [Dict.get?_eq_none_iff, Dict.mem_keys_ofList, List.map_map]
        intro hmem
        obtain ⟨other, hother, hsame⟩ := List.mem_map.mp hmem
        obtain ⟨hother, hunresolved⟩ := List.mem_filter.mp hother
        rw [List.inj_on_of_nodup_map hids hother hartist hsame, hlocal] at hunresolved
        cases hunresolved
      have hpair : (artist.id, result) ∈ pending.filterMap fun artist =>
          (resolveLocally texts thresholds rules canonical artist).map fun result =>
            (artist.id, result) := List.mem_filterMap.mpr ⟨artist, hartist, by simp [hlocal]⟩
      rw [hnone, (Dict.get?_ofList_eq_some (nodup_resolved hids)).mpr hpair]
      rfl

theorem mergedResults_keys :
    (mergedResults texts thresholds client rules canonical pending).keys.Perm
      (pending.map BroadcastArtist.id) := by
  refine (List.perm_ext_iff_of_nodup (Dict.nodup _) hids).mpr fun id =>
    Dict.mem_keys_iff.trans ?_
  constructor
  · rintro ⟨result, hresult⟩
    rw [get?_mergedResults, Option.or_eq_some_iff] at hresult
    rcases hresult with hsecond | ⟨-, hfirst⟩
    · obtain ⟨artist, hartist, heq⟩ :=
        List.mem_map.mp ((Dict.get?_ofList_eq_some (nodup_unresolved hids)).mp hsecond)
      obtain ⟨rfl, -⟩ := Prod.mk.inj heq
      exact List.mem_map_of_mem (List.mem_of_mem_filter hartist)
    · obtain ⟨artist, hartist, heq⟩ :=
        List.mem_filterMap.mp ((Dict.get?_ofList_eq_some (nodup_resolved hids)).mp hfirst)
      obtain ⟨found, -, hpair⟩ := Option.map_eq_some_iff.mp heq
      obtain ⟨rfl, -⟩ := Prod.mk.inj hpair
      exact List.mem_map_of_mem hartist
  · intro hid
    obtain ⟨artist, hartist, rfl⟩ := List.mem_map.mp hid
    exact ⟨_, mergedResults_artist hids hartist⟩

end

def plainTexts : ArtistTexts where
  lower name := String.ofList (name.toList.map Char.toLower)
  isAlnum := Char.isAlphanum
  normalizeArtist name := name
  tokenSortRatio _ _ := 0
  fullmatch _ _ := false

/-- A MusicBrainz that knows one artist, however its name is spelled. -/
def oneArtist (name : String) : Except HttpError (List MbArtistResult) :=
  .ok (if plainTexts.lower name = "creedence"
    then [{ id := "ab3f", name := "Creedence", score := some 100 }]
    else [])

/-- Two spellings of a name that is cut at nine characters. -/
def twoSpellings : List BroadcastArtist := [⟨1, "CREEDENCE", "creedence", .pending, none, none⟩,
  ⟨2, "Creedence", "creedence", .pending, none, none⟩]

end RetroStation.Matching
