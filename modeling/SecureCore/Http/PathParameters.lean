import SecureCore.Http.PercentCoding
import SecureCore.Http.RouteTable
import SecureCore.Http.Targets

/-! # Path parameters

Values put into a pattern, and read back from the path. -/

namespace SecureCore

set_option autoImplicit false

open Coding TrustedProxy

/-! ## Segments -/

def parameterNames (segments : List RouteSegment) : List (List Char) :=
  (segments.filter RouteSegment.parameter).map RouteSegment.value

/-- The text of a segment, with `raw` for the parameters. -/
def fillSegment (raw : List Char → List Char) (segment : RouteSegment) : List Char :=
  if segment.parameter then raw segment.value else segment.value

/-- The path that `raw` makes of a pattern. -/
def substitute (raw : List Char → List Char) (segments : List RouteSegment) : List Char :=
  segments.flatMap (fun segment => '/' :: fillSegment raw segment)

variable {pattern : List Char} {names : List (List Char)} {segments : List RouteSegment}

/-- What a segment of a pattern is compiled to. -/
inductive Compiled (names : List (List Char)) : List Char → RouteSegment → Prop
  | parameter {name : List Char} (hValid : isValidParameterName name = true) (hNew : name ∉ names) :
      Compiled names ('{' :: name ++ ['}']) ⟨true, name⟩
  | static {value : List Char} (hOpen : '{' ∉ value) (hClose : '}' ∉ value) :
      Compiled names value ⟨false, value⟩

theorem braced {segment : List Char} (hBegin : segment.head? = some '{')
    (hEnd : segment.getLast? = some '}') (hLong : 3 ≤ segment.length) :
    segment = '{' :: substr segment 1 (segment.length - 2) ++ ['}'] := by
  cases segment with
  | nil => cases hBegin
  | cons first rest =>
    cases hBegin
    have hRest : rest ≠ [] := by
      rintro rfl
      simp at hLong
    have hLast : rest.getLast hRest = '}' := by
      rw [List.getLast?_cons_of_ne_nil hRest, List.getLast?_eq_some_getLast hRest] at hEnd
      exact Option.some.inj hEnd
    have hSplit := List.dropLast_append_getLast hRest
    rw [hLast] at hSplit
    have hMiddle : substr ('{' :: rest) 1 (('{' :: rest).length - 2) = rest.dropLast := by
      unfold substr
      rw [List.dropLast_eq_take]
      rfl
    rw [hMiddle, List.cons_append, hSplit]

theorem compileSegment_ok {segment : List Char} {compiled : RouteSegment}
    (h : compileSegment pattern names segment = .ok compiled) : Compiled names segment compiled := by
  unfold compileSegment at h
  simp only at h
  split at h
  · split at h
    · cases h
    · rename_i hBraces
      split at h
      · cases h
      · rename_i hValid
        split at h
        · cases h
        · rename_i hNew
          cases h
          simp only [Bool.or_eq_true, Bool.not_eq_true', decide_eq_true_eq, not_or, beq_eq_false_iff_ne,
            not_not, bne_iff_ne] at hBraces
          obtain ⟨⟨⟨⟨hBegin, hEnd⟩, hLong⟩, -⟩, -⟩ := hBraces
          have hSegment := braced hBegin hEnd (by omega)
          generalize substr segment 1 (segment.length - 2) = name at hSegment hValid hNew
          rw [hSegment]
          exact .parameter (by simpa using hValid) (by simpa using hNew)
  · split at h
    · cases h
    · rename_i hPlain
      cases h
      rw [Bool.or_eq_true, not_or, List.contains_iff_mem, List.contains_iff_mem] at hPlain
      exact .static hPlain.1 hPlain.2

/-- The names that are taken behind a segment. -/
theorem compileSegments_cons {segment : List Char} {rest : List (List Char)}
    (h : compileSegments pattern names (segment :: rest) = .ok segments) :
    ∃ compiled later, segments = compiled :: later ∧ Compiled names segment compiled ∧
      compileSegments pattern (if compiled.parameter then compiled.value :: names else names) rest =
        .ok later := by
  rw [compileSegments] at h
  obtain ⟨compiled, hCompiled, h⟩ := bind_eq_ok.mp h
  obtain ⟨later, hLater, h⟩ := bind_eq_ok.mp h
  cases h
  exact ⟨compiled, later, rfl, compileSegment_ok hCompiled, hLater⟩

/-- The names of a pattern are distinct. -/
theorem compileSegments_names {texts : List (List Char)}
    (h : compileSegments pattern names texts = .ok segments) :
    (parameterNames segments).Nodup ∧ ∀ name ∈ parameterNames segments, name ∉ names := by
  induction texts generalizing names segments with
  | nil =>
    cases h
    exact ⟨List.nodup_nil, nofun⟩
  | cons text texts ih =>
    obtain ⟨compiled, later, rfl, hCompiled, hLater⟩ := compileSegments_cons h
    obtain ⟨hNodup, hNew⟩ := ih hLater
    cases hCompiled with
    | static hOpen hClose => exact ⟨hNodup, hNew⟩
    | @parameter name hValid hName =>
      have hNames : parameterNames (⟨true, name⟩ :: later) = name :: parameterNames later := rfl
      rw [hNames, List.nodup_cons]
      refine ⟨⟨fun hMem => hNew name hMem List.mem_cons_self, hNodup⟩, ?_⟩
      intro other hOther
      rcases List.mem_cons.mp hOther with rfl | hOther
      · exact hName
      · exact fun hMem => hNew other hOther (List.mem_cons_of_mem _ hMem)

/-- A pattern is its segments, with the names in braces. -/
theorem compileSegments_texts {texts : List (List Char)}
    (h : compileSegments pattern names texts = .ok segments) :
    texts = segments.map (fillSegment (fun name => '{' :: name ++ ['}'])) := by
  induction texts generalizing names segments with
  | nil =>
    cases h
    rfl
  | cons text texts ih =>
    obtain ⟨compiled, later, rfl, hCompiled, hLater⟩ := compileSegments_cons h
    rw [List.map_cons, ← ih hLater]
    cases hCompiled with
    | static hOpen hClose => rfl
    | parameter hValid hName => rfl

theorem static_of_compileSegments {texts : List (List Char)}
    (h : compileSegments pattern names texts = .ok segments) {segment : RouteSegment}
    (hSegment : segment ∈ segments) (hStatic : segment.parameter = false) :
    segment.value ∈ texts ∧ '{' ∉ segment.value ∧ '}' ∉ segment.value := by
  induction texts generalizing names segments with
  | nil =>
    cases h
    cases hSegment
  | cons text texts ih =>
    obtain ⟨compiled, later, rfl, hCompiled, hLater⟩ := compileSegments_cons h
    rcases List.mem_cons.mp hSegment with rfl | hSegment
    · cases hCompiled with
      | static hOpen hClose => exact ⟨List.mem_cons_self, hOpen, hClose⟩
      | parameter hValid hName => cases hStatic
    · obtain ⟨hMem, hBraces⟩ := ih hLater hSegment
      exact ⟨List.mem_cons_of_mem _ hMem, hBraces⟩

/-! ## Paths of segments -/

theorem flatMap_slash {texts : List (List Char)} (h : texts ≠ []) :
    texts.flatMap (fun text => '/' :: text) = '/' :: ['/'].intercalate texts := by
  induction texts with
  | nil => exact absurd rfl h
  | cons text texts ih =>
    rw [List.flatMap_cons, List.cons_append]
    cases texts with
    | nil => simp
    | cons next texts =>
      rw [ih (List.cons_ne_nil _ _), List.intercalate_cons_cons, List.append_assoc]
      rfl

theorem splitPath_flatMap {texts : List (List Char)} (hSlash : ∀ text ∈ texts, '/' ∉ text)
    (hText : ∃ text ∈ texts, text ≠ []) :
    splitPath (texts.flatMap (fun text => '/' :: text)) = texts := by
  obtain ⟨text, hMem, hText⟩ := hText
  have hTexts : texts ≠ [] := List.ne_nil_of_mem hMem
  rw [flatMap_slash hTexts, splitPath_eq, if_neg, List.splitOn_intercalate '/' hSlash hTexts]
  intro hEmpty
  have hSplit := List.splitOn_intercalate '/' hSlash hTexts
  rw [hEmpty, List.splitOn_nil] at hSplit
  rw [← hSplit, List.mem_singleton] at hMem
  exact hText hMem

theorem flatMap_splitPath {path : List Char} (hPath : path.head? = some '/')
    (hSegments : splitPath path ≠ []) :
    (splitPath path).flatMap (fun text => '/' :: text) = path ∧ ∀ text ∈ splitPath path, '/' ∉ text := by
  cases path with
  | nil => cases hPath
  | cons c rest =>
    cases hPath
    rw [splitPath_eq] at hSegments ⊢
    by_cases hRest : rest = []
    · rw [if_pos hRest] at hSegments
      exact absurd rfl hSegments
    · rw [if_neg hRest]
      refine ⟨?_, fun text hText => not_mem_of_mem_splitOn hText⟩
      rw [flatMap_slash (List.splitOn_ne_nil _ _), List.intercalate_splitOn]

theorem substitute_eq (raw : List Char → List Char) (segments : List RouteSegment) :
    substitute raw segments = (segments.map (fillSegment raw)).flatMap (fun text => '/' :: text) := by
  rw [List.flatMap_map]
  rfl

/-! ## Matching -/

theorem mem_parameterNames {segment : RouteSegment} (hSegment : segment ∈ segments)
    (hParameter : segment.parameter = true) : segment.value ∈ parameterNames segments :=
  List.mem_map.mpr ⟨segment, List.mem_filter.mpr ⟨hSegment, hParameter⟩, rfl⟩

theorem parameterNames_cons (segment : RouteSegment) (segments : List RouteSegment) :
    parameterNames (segment :: segments) =
      if segment.parameter then segment.value :: parameterNames segments
      else parameterNames segments := by
  unfold parameterNames
  rw [List.filter_cons]
  split <;> rfl

theorem lookup_emplace (parameters : RouteParameters) (name value other : List Char) :
    (parameters.emplace name value).lookup other =
      (parameters.lookup other).or (if other = name then some value else none) := by
  unfold RouteParameters.emplace
  split
  · rename_i hMem
    cases hOther : parameters.lookup other with
    | some old => rfl
    | none =>
      rw [Option.none_or, if_neg]
      rintro rfl
      exact AList.lookup_eq_none.mp hOther hMem
  · rename_i hNew
    by_cases hSame : other = name
    · subst hSame
      rw [AList.lookup_insert, AList.lookup_eq_none.mpr hNew, if_pos rfl]
      rfl
    · rw [AList.lookup_insert_ne hSame, if_neg hSame, Option.or_none]

/-- Raw segments that decode are collected under their names. -/
theorem matchSegments_fill {raw values : List Char → List Char} (parameters : RouteParameters)
    (h : ∀ name ∈ parameterNames segments,
      raw name ≠ [] ∧ decodeComponent (raw name) false = some (values name)) :
    ∃ result, matchSegments parameters segments (segments.map (fillSegment raw)) = some result ∧
      ∀ name, result.lookup name = (parameters.lookup name).or
        (if name ∈ parameterNames segments then some (values name) else none) := by
  induction segments generalizing parameters with
  | nil =>
    refine ⟨parameters, rfl, ?_⟩
    intro name
    exact Option.or_none.symm
  | cons segment segments ih =>
    rw [List.map_cons, matchSegments, parameterNames_cons]
    rw [parameterNames_cons] at h
    obtain ⟨parameter, value⟩ := segment
    cases parameter with
    | false =>
      obtain ⟨result, hResult, hLookup⟩ := ih parameters h
      refine ⟨result, ?_, hLookup⟩
      simp only [fillSegment]
      simpa using hResult
    | true =>
      simp only [if_true, List.forall_mem_cons] at h
      obtain ⟨⟨hRaw, hDecoded⟩, hRest⟩ := h
      obtain ⟨result, hResult, hLookup⟩ := ih (parameters.emplace value (values value)) hRest
      refine ⟨result, ?_, ?_⟩
      · have hNonempty : (raw value).isEmpty = false := by simpa using hRaw
        simp only [fillSegment, if_true, Bool.not_true, Bool.false_eq_true, if_false, hNonempty,
          hDecoded]
        exact hResult
      · intro name
        rw [hLookup name, lookup_emplace, Option.or_assoc]
        congr 1
        by_cases hName : name = value
        · subst hName
          simp
        · simp [hName]

/-- Segments that match are the pattern's, with a raw text that decodes for every name. -/
theorem fill_of_matchSegments {parameters result : RouteParameters} {texts : List (List Char)}
    (hNodup : (parameterNames segments).Nodup)
    (hNew : ∀ name ∈ parameterNames segments, name ∉ parameters)
    (hLength : texts.length = segments.length)
    (h : matchSegments parameters segments texts = some result) :
    ∃ raw : List Char → List Char, texts = segments.map (fillSegment raw) ∧
      (∀ name ∈ parameterNames segments, raw name ≠ [] ∧
        ∃ value, decodeComponent (raw name) false = some value ∧ result.lookup name = some value) ∧
      ∀ name value, parameters.lookup name = some value → result.lookup name = some value := by
  induction segments generalizing parameters texts with
  | nil =>
    rw [List.length_nil, List.length_eq_zero_iff] at hLength
    rw [hLength, matchSegments] at h
    · cases h
      exact ⟨id, hLength, nofun, fun _ _ hFound => hFound⟩
    · exact nofun
  | cons segment segments ih =>
    cases texts with
    | nil => cases hLength
    | cons text texts =>
      rw [matchSegments] at h
      rw [parameterNames_cons] at hNodup hNew
      rw [List.length_cons, List.length_cons, Nat.add_right_cancel_iff] at hLength
      obtain ⟨parameter, name⟩ := segment
      cases parameter with
      | false =>
        simp only [Bool.not_false, if_true] at h
        split at h
        · cases h
        · rename_i hSame
          rw [bne_iff_ne, not_not] at hSame
          obtain ⟨raw, hTexts, hNames, hKept⟩ := ih hNodup hNew hLength h
          refine ⟨raw, ?_, hNames, hKept⟩
          rw [List.map_cons, ← hTexts, ← hSame]
          rfl
      | true =>
        simp only [if_true, List.nodup_cons, List.forall_mem_cons] at hNodup hNew
        simp only [Bool.not_true, Bool.false_eq_true, if_false] at h
        split at h
        · cases h
        · rename_i hText
          split at h
          · cases h
          · rename_i decoded hDecoded
            have hAbsent : parameters.lookup name = none := AList.lookup_eq_none.mpr hNew.1
            have hLater : ∀ other ∈ parameterNames segments, other ∉ parameters.emplace name decoded := by
              intro other hOther
              rw [← AList.lookup_eq_none, lookup_emplace,
                AList.lookup_eq_none.mpr (hNew.2 other hOther), Option.none_or, if_neg]
              rintro rfl
              exact hNodup.1 hOther
            obtain ⟨raw, hTexts, hNames, hKept⟩ := ih hNodup.2 hLater hLength h
            have hFound : result.lookup name = some decoded := by
              apply hKept
              rw [lookup_emplace, hAbsent, if_pos rfl]
              rfl
            -- the raw text of the new name; the later segments do not have it
            refine ⟨Function.update raw name text, ?_, ?_, ?_⟩
            · rw [List.map_cons, hTexts]
              congr 1
              · exact (Function.update_self name text raw).symm
              · apply List.map_congr_left
                intro segment hSegment
                unfold fillSegment
                split
                · rename_i hParameter
                  rw [Function.update_of_ne]
                  intro hSame
                  exact hNodup.1 (hSame ▸ mem_parameterNames hSegment hParameter)
                · rfl
            · intro other hOther
              rcases List.mem_cons.mp hOther with rfl | hBehind
              · rw [Function.update_self]
                exact ⟨by simpa using hText, decoded, hDecoded, hFound⟩
              · rw [Function.update_of_ne]
                · exact hNames other hBehind
                · rintro rfl
                  exact hNodup.1 hBehind
            · intro other value hOther
              apply hKept
              rw [lookup_emplace, hOther]
              rfl

/-! ## Round trips -/

/-- A value in a path, with the bytes escaped that would end it. -/
abbrev PathCode : Char → List Char → Prop := Escapes ['%', '/', '?'] false

theorem addRoute_ok {router : Router} {method : Verb} {handler : Router.Handler}
    (h : (router.addRoute method pattern (some handler)).1 = .ok ()) :
    pattern.head? = some '/' ∧ '?' ∉ pattern ∧
      (isPatternPath pattern = true → ∃ compiled, compilePattern pattern = .ok compiled) := by
  unfold Router.addRoute at h
  split at h
  · cases h
  · rename_i hPath
    rw [Bool.or_eq_true, not_or, bne_iff_ne, not_not, List.contains_iff_mem] at hPath
    refine ⟨hPath.1, hPath.2, ?_⟩
    intro hPattern
    rw [hPattern] at h
    cases hCompiled : compilePattern pattern with
    | ok compiled => exact ⟨compiled, rfl⟩
    | error error =>
      rw [hCompiled] at h
      cases h

/-- A pattern that add_route accepts, in its compiled form. -/
structure Template (pattern : List Char) (compiled : PatternRoute) : Prop where
  names : (parameterNames compiled.segments).Nodup
  parameter : ∃ segment ∈ compiled.segments, segment.parameter = true
  static : ∀ segment ∈ compiled.segments, segment.parameter = false →
    '/' ∉ segment.value ∧ '?' ∉ segment.value
  text : substitute (fun name => '{' :: name ++ ['}']) compiled.segments = pattern

theorem template_of_compiled {compiled : PatternRoute} (hSlash : pattern.head? = some '/')
    (hQuery : '?' ∉ pattern) (hPattern : isPatternPath pattern = true)
    (hCompiled : compilePattern pattern = .ok compiled) : Template pattern compiled := by
  have hSegments := (compilePattern_ok hCompiled).1
  have hNonempty : splitPath pattern ≠ [] := by
    cases pattern with
    | nil => cases hSlash
    | cons c rest =>
      cases hSlash
      rw [splitPath_eq, if_neg]
      · exact List.splitOn_ne_nil _ _
      · rintro rfl
        exact absurd hPattern (by decide)
  obtain ⟨hText, hTexts⟩ := flatMap_splitPath hSlash hNonempty
  have hFill := compileSegments_texts hSegments
  have hStatic : ∀ segment ∈ compiled.segments, segment.parameter = false →
      segment.value ∈ splitPath pattern ∧ '{' ∉ segment.value ∧ '}' ∉ segment.value :=
    fun segment hSegment => static_of_compileSegments hSegments hSegment
  have hSubset : ∀ text ∈ splitPath pattern, ∀ c ∈ text, c ∈ pattern := by
    intro text hMem c hc
    rw [← hText]
    exact List.mem_flatMap.mpr ⟨text, hMem, List.mem_cons_of_mem _ hc⟩
  refine ⟨(compileSegments_names hSegments).1, ?_, ?_, ?_⟩
  · -- without a parameter there would be no brace in the pattern
    by_contra hNone
    have hAll : ∀ segment ∈ compiled.segments, segment.parameter = false := by
      intro segment hSegment
      cases hParameter : segment.parameter with
      | false => rfl
      | true => exact absurd ⟨segment, hSegment, hParameter⟩ hNone
    have hBraces : ∀ c ∈ pattern, c ≠ '{' ∧ c ≠ '}' := by
      intro c hc
      rw [← hText, hFill] at hc
      obtain ⟨text, hMem, hc⟩ := List.mem_flatMap.mp hc
      obtain ⟨segment, hSegment, rfl⟩ := List.mem_map.mp hMem
      have hParameter := hAll segment hSegment
      obtain ⟨-, hOpen, hClose⟩ := hStatic segment hSegment hParameter
      unfold fillSegment at hc
      rw [hParameter, if_neg Bool.false_ne_true] at hc
      rcases List.mem_cons.mp hc with rfl | hc
      · decide
      · exact ⟨fun hSame => hOpen (hSame ▸ hc), fun hSame => hClose (hSame ▸ hc)⟩
    unfold isPatternPath at hPattern
    rw [Bool.or_eq_true, List.contains_iff_mem, List.contains_iff_mem] at hPattern
    rcases hPattern with hOpen | hClose
    · exact (hBraces '{' hOpen).1 rfl
    · exact (hBraces '}' hClose).2 rfl
  · intro segment hSegment hParameter
    have hMem := (hStatic segment hSegment hParameter).1
    exact ⟨hTexts _ hMem, fun hc => hQuery (hSubset _ hMem _ hc)⟩
  · rw [substitute_eq, ← hFill, hText]

theorem fillSegment_free {compiled : PatternRoute} {raw : List Char → List Char} {c : Char}
    (hStatic : ∀ segment ∈ compiled.segments, segment.parameter = false → c ∉ segment.value)
    (hRaw : ∀ name ∈ parameterNames compiled.segments, c ∉ raw name) :
    ∀ text ∈ compiled.segments.map (fillSegment raw), c ∉ text := by
  intro text hText
  obtain ⟨segment, hSegment, rfl⟩ := List.mem_map.mp hText
  unfold fillSegment
  split
  · rename_i hParameter
    exact hRaw _ (mem_parameterNames hSegment hParameter)
  · rename_i hParameter
    exact hStatic segment hSegment (by simpa using hParameter)

/-- Values that are put into an accepted pattern come back, and every path that it matches
is made in this way. -/
theorem path_parameters (router : Router) (method : Verb) (pattern : List Char)
    (handler : Router.Handler) (hPattern : isPatternPath pattern = true)
    (hAccepted : (router.addRoute method pattern (some handler)).1 = .ok ()) :
    ∃ compiled, compilePattern pattern = .ok compiled ∧
      substitute (fun name => '{' :: name ++ ['}']) compiled.segments = pattern ∧
      (∀ raw values : List Char → List Char,
        (∀ name ∈ parameterNames compiled.segments,
          values name ≠ [] ∧ Encodes PathCode (values name) (raw name)) →
        (∀ query, pathFromTarget (substitute raw compiled.segments ++ '?' :: query) =
          substitute raw compiled.segments) ∧
        ∃ parameters, matchPattern compiled (substitute raw compiled.segments) = some parameters ∧
          ∀ name, parameters.lookup name =
            if name ∈ parameterNames compiled.segments then some (values name) else none) ∧
      ∀ path parameters, path.head? = some '/' → matchPattern compiled path = some parameters →
        ∃ raw : List Char → List Char,
          splitPath path = compiled.segments.map (fillSegment raw) ∧
          substitute raw compiled.segments = path ∧
          ∀ name ∈ parameterNames compiled.segments, raw name ≠ [] ∧ '/' ∉ raw name ∧
            ∃ value, Encodes (escapes false) value (raw name) ∧
              parameters.lookup name = some value := by
  obtain ⟨hSlash, hQuery, hCompiles⟩ := addRoute_ok hAccepted
  obtain ⟨compiled, hCompiled⟩ := hCompiles hPattern
  have hTemplate := template_of_compiled hSlash hQuery hPattern hCompiled
  refine ⟨compiled, hCompiled, hTemplate.text, ?_, ?_⟩
  · intro raw values hValues
    have hDecodes : ∀ name ∈ parameterNames compiled.segments,
        raw name ≠ [] ∧ decodeComponent (raw name) false = some (values name) := by
      intro name hName
      obtain ⟨hNonempty, hCode⟩ := hValues name hName
      refine ⟨hCode.ne_nil (fun _ _ hPiece => hPiece.ne_nil) hNonempty, ?_⟩
      exact decodeComponent_of_encodes (by decide) (fun h => nomatch h) hCode
    have hNoSlash := fillSegment_free (c := '/')
      (fun segment hSegment hStatic => (hTemplate.static segment hSegment hStatic).1)
      (fun name hName => encodes_not_mem (by decide) (by decide) (by decide) (by decide)
        (hValues name hName).2)
    have hNoQuery := fillSegment_free (c := '?')
      (fun segment hSegment hStatic => (hTemplate.static segment hSegment hStatic).2)
      (fun name hName => encodes_not_mem (by decide) (by decide) (by decide) (by decide)
        (hValues name hName).2)
    rw [substitute_eq]
    constructor
    · intro query
      apply pathFromTarget_append
      intro hMem
      obtain ⟨text, hText, hc⟩ := List.mem_flatMap.mp hMem
      rcases List.mem_cons.mp hc with hSame | hc
      · exact absurd hSame (by decide)
      · exact hNoQuery text hText hc
    · obtain ⟨parameters, hParameters, hLookup⟩ := matchSegments_fill ∅ hDecodes
      refine ⟨parameters, ?_, ?_⟩
      · have hNonempty : ∃ text ∈ compiled.segments.map (fillSegment raw), text ≠ [] := by
          obtain ⟨segment, hSegment, hParameter⟩ := hTemplate.parameter
          refine ⟨_, List.mem_map_of_mem hSegment, ?_⟩
          unfold fillSegment
          rw [if_pos hParameter]
          exact (hDecodes _ (mem_parameterNames hSegment hParameter)).1
        unfold matchPattern
        simp only
        rw [splitPath_flatMap hNoSlash hNonempty, if_neg (by simp)]
        exact hParameters
      · intro name
        rw [hLookup name, AList.lookup_empty, Option.none_or]
  · intro path parameters hPath hMatch
    unfold matchPattern at hMatch
    simp only at hMatch
    split at hMatch
    · cases hMatch
    · rename_i hLength
      rw [bne_iff_ne, not_not] at hLength
      have hNonempty : splitPath path ≠ [] := by
        obtain ⟨segment, hSegment, -⟩ := hTemplate.parameter
        rw [← List.length_pos_iff, hLength]
        exact List.length_pos_of_mem hSegment
      obtain ⟨hText, hTexts⟩ := flatMap_splitPath hPath hNonempty
      obtain ⟨raw, hFill, hNames, -⟩ := fill_of_matchSegments hTemplate.names
        (fun name _ => AList.notMem_empty name) hLength hMatch
      refine ⟨raw, hFill, ?_, ?_⟩
      · rw [substitute_eq, ← hFill, hText]
      · intro name hName
        obtain ⟨hRaw, value, hDecoded, hFound⟩ := hNames name hName
        refine ⟨hRaw, ?_, value, encodes_of_decodeComponent hDecoded, hFound⟩
        obtain ⟨segment, hSegment, rfl⟩ := List.mem_map.mp hName
        obtain ⟨hMem, hParameter⟩ := List.mem_filter.mp hSegment
        apply hTexts
        rw [hFill]
        have hSame : fillSegment raw segment = raw segment.value := if_pos hParameter
        rw [← hSame]
        exact List.mem_map_of_mem hMem

theorem path_parameters_sample :
    isPatternPath "/users/{id}".toList = true ∧
    ∃ compiled parameters, compilePattern "/users/{id}".toList = .ok compiled ∧
      matchPattern compiled (substitute (fun _ => ['a', '%', '2', 'f', 'b']) compiled.segments) =
        some parameters := by
  have hPattern : isPatternPath "/users/{id}".toList = true := by decide +kernel
  have hAccepted : (Router.empty.addRoute .get "/users/{id}".toList
      (some fun _ _ => .ok HttpResponse.initial)).1 = .ok () := by decide +kernel
  have hSlash : PathCode (Char.ofNat (hexValue '2' <<< 4 ||| hexValue 'f')) ['%', '2', 'f'] :=
    .escaped rfl rfl
  rw [show Char.ofNat (hexValue '2' <<< 4 ||| hexValue 'f') = '/' by decide] at hSlash
  obtain ⟨compiled, hCompiled, -, hForward, -⟩ := path_parameters Router.empty .get
    "/users/{id}".toList (fun _ _ => .ok HttpResponse.initial) hPattern hAccepted
  obtain ⟨-, parameters, hMatch, -⟩ := hForward (fun _ => ['a', '%', '2', 'f', 'b'])
    (fun _ => ['a', '/', 'b']) (by
    intro name _
    refine ⟨by decide, ?_⟩
    have hA : PathCode 'a' ['a'] := .plain (by decide)
    have hB : PathCode 'b' ['b'] := .plain (by decide)
    exact .cons hA (.cons hSlash (.cons hB .nil)))
  exact ⟨hPattern, compiled, parameters, hCompiled, hMatch⟩

end SecureCore
