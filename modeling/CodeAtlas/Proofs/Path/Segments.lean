import CodeAtlas.Path
import CodeAtlas.Proofs.Text.Words
import Mathlib.Data.List.Basic
import Mathlib.Data.List.TakeWhile

/-!
Paths as lists of segments. A normalised path is its segments with slashes between them, behind one
slash if it begins at the root. On such paths the directory of a file, the path read in a directory
and the way up from it are plain operations on lists, and the extension of a path is that of its
last segment.
-/

set_option autoImplicit false

namespace CodeAtlas

namespace Text

variable {sep : Char}

theorem splitAt_of_not_mem {t : Text} (h : sep ∉ t) : splitAt sep t = [t] := by
  induction t with
  | nil => rfl
  | cons c t ih =>
    rw [List.mem_cons, not_or] at h
    obtain ⟨hc, ht⟩ := h
    rw [splitAt, if_neg (Ne.symm hc), ih ht]

theorem splitAt_append {s : Text} (h : sep ∉ s) (t : Text) :
    splitAt sep (s ++ sep :: t) = s :: splitAt sep t := by
  induction s with
  | nil => simp [splitAt]
  | cons c s ih =>
    rw [List.mem_cons, not_or] at h
    obtain ⟨hc, hs⟩ := h
    rw [List.cons_append, splitAt, if_neg (Ne.symm hc), ih hs]

theorem splitAt_joinWith {ts : List Text} (hne : ts ≠ []) (h : ∀ t ∈ ts, sep ∉ t) :
    splitAt sep (joinWith [sep] ts) = ts := by
  induction ts with
  | nil => exact absurd rfl hne
  | cons t ts ih =>
    cases ts with
    | nil => exact splitAt_of_not_mem (h t (.head _))
    | cons u us =>
      rw [joinWith_cons_cons, List.append_assoc, List.singleton_append,
        splitAt_append (h t (.head _)), ih (List.cons_ne_nil _ _) fun v hv => h v (.tail _ hv)]

theorem not_mem_of_mem_splitAt {s t : Text} (h : t ∈ splitAt sep s) : sep ∉ t := by
  induction s generalizing t with
  | nil =>
    rw [List.mem_singleton.1 h]
    exact List.not_mem_nil
  | cons c s ih =>
    rw [splitAt] at h
    split at h
    · rcases List.mem_cons.1 h with rfl | h
      · exact List.not_mem_nil
      · exact ih h
    · rename_i hc
      split at h
      case _ hnil => exact absurd hnil (splitAt_ne_nil sep s)
      case _ piece pieces hpieces =>
        rw [hpieces] at ih
        rcases List.mem_cons.1 h with rfl | h
        · exact List.not_mem_cons_of_ne_of_not_mem (Ne.symm hc) (ih (.head _))
        · exact ih (.tail _ h)

end Text

namespace Path

def IsPart (s : Text) : Prop := s ≠ [] ∧ '/' ∉ s

instance : DecidablePred IsPart := fun s => by unfold IsPart; infer_instance

def IsSegment (s : Text) : Prop := IsPart s ∧ s ≠ ['.'] ∧ s ≠ ['.', '.']

instance : DecidablePred IsSegment := fun s => by unfold IsSegment; infer_instance

def mark (rooted : Bool) : Text := if rooted then ['/'] else []

def ofSegments (rooted : Bool) (segments : List Text) : Text :=
  mark rooted ++ Text.joinWith ['/'] segments

/-- What stands before a path that is read in the directory with some segments. -/
def front (rooted : Bool) (segments : List Text) : Text :=
  mark rooted ++ (segments.map (· ++ ['/'])).flatten

def Normal (rooted : Bool) (p : Text) : Prop :=
  ∃ segments, segments ≠ [] ∧ (∀ s ∈ segments, IsSegment s) ∧ p = ofSegments rooted segments

variable {rooted : Bool} {dirs : List Text}

theorem IsPart.ne_nil {s : Text} (h : IsPart s) : s ≠ [] := h.1

theorem IsPart.slash_not_mem {s : Text} (h : IsPart s) : '/' ∉ s := h.2

theorem IsSegment.isPart {s : Text} (h : IsSegment s) : IsPart s := h.1

theorem IsPart.head?_ne {s : Text} (h : IsPart s) : s.head? ≠ some '/' := by
  intro hs
  exact h.slash_not_mem (List.mem_of_mem_head? hs)

theorem IsSegment.slash_not_mem_left {s t : Text} (h : IsSegment (s ++ t)) : '/' ∉ s :=
  fun hs => h.isPart.slash_not_mem (List.mem_append_left t hs)

theorem ofSegments_concat (rooted : Bool) (dirs : List Text) (s : Text) :
    ofSegments rooted (dirs ++ [s]) = front rooted dirs ++ s := by
  have hjoin : Text.joinWith ['/'] (dirs ++ [s]) = (dirs.map (· ++ ['/'])).flatten ++ s := by
    induction dirs with
    | nil => rfl
    | cons d dirs ih =>
      obtain ⟨t, ts, hts⟩ := List.exists_cons_of_ne_nil (List.append_ne_nil_of_right_ne_nil dirs
        (List.cons_ne_nil s []))
      rw [List.cons_append, hts, Text.joinWith_cons_cons, ← hts, ih]
      simp
  rw [ofSegments, front, hjoin, List.append_assoc]

theorem ofSegments_concat_append (rooted : Bool) (dirs : List Text) (s t : Text) :
    ofSegments rooted (dirs ++ [s ++ t]) = ofSegments rooted (dirs ++ [s]) ++ t := by
  rw [ofSegments_concat, ofSegments_concat, List.append_assoc]

theorem front_concat (rooted : Bool) (dirs : List Text) (s : Text) :
    front rooted (dirs ++ [s]) = ofSegments rooted (dirs ++ [s]) ++ ['/'] := by
  rw [ofSegments_concat]
  simp [front]

theorem front_append (rooted : Bool) (dirs inner : List Text) :
    front rooted (dirs ++ inner) = front rooted dirs ++ front false inner := by
  simp [front, mark]

theorem front_eq_concat (hne : dirs ≠ []) :
    front rooted dirs = ofSegments rooted dirs ++ ['/'] := by
  obtain ⟨dirs, d, rfl⟩ := (List.eq_nil_or_concat' dirs).resolve_left hne
  exact front_concat rooted dirs d

theorem ofSegments_concat_slash (hne : dirs ≠ []) (s : Text) :
    ofSegments rooted (dirs ++ [s]) = ofSegments rooted dirs ++ '/' :: s := by
  rw [ofSegments_concat, front_eq_concat hne, List.append_assoc]
  rfl

theorem ofSegments_append {inner : List Text} (hne : inner ≠ []) :
    ofSegments rooted (dirs ++ inner) = front rooted dirs ++ ofSegments false inner := by
  obtain ⟨inner, s, rfl⟩ := (List.eq_nil_or_concat' inner).resolve_left hne
  rw [← List.append_assoc, ofSegments_concat, ofSegments_concat, front_append, List.append_assoc]

theorem front_ends (rooted : Bool) (dirs : List Text) :
    front rooted dirs = [] ∨ ∃ t, front rooted dirs = t ++ ['/'] := by
  rcases List.eq_nil_or_concat' dirs with rfl | ⟨dirs, s, rfl⟩
  · cases rooted
    · exact .inl rfl
    · exact .inr ⟨[], rfl⟩
  · rw [front_concat]
    exact .inr ⟨_, rfl⟩

theorem head?_front_append (h : ∀ d ∈ dirs, IsPart d) {p : Text} (hp : p.head? ≠ some '/') :
    (front false dirs ++ p).head? ≠ some '/' := by
  cases dirs with
  | nil => exact hp
  | cons d dirs =>
    obtain ⟨c, t, rfl⟩ := List.exists_cons_of_ne_nil (h d (.head _)).ne_nil
    simpa [front, mark] using (h _ (.head _)).head?_ne

theorem Normal.exists_concat {p : Text} (h : Normal rooted p) :
    ∃ dirs name, (∀ s ∈ dirs ++ [name], IsSegment s) ∧ p = ofSegments rooted (dirs ++ [name]) := by
  obtain ⟨segments, hne, hsegments, hp⟩ := h
  obtain ⟨dirs, name, rfl⟩ := (List.eq_nil_or_concat' segments).resolve_left hne
  exact ⟨dirs, name, hsegments, hp⟩

theorem Normal.head?_ne {p : Text} (h : Normal false p) : p.head? ≠ some '/' := by
  obtain ⟨dirs, name, hsegments, rfl⟩ := h.exists_concat
  rw [ofSegments_concat]
  exact head?_front_append (fun d hd => (hsegments d (List.mem_append_left _ hd)).isPart)
    (hsegments name (by simp)).isPart.head?_ne

theorem head_and_baseName_append {t s : Text} (ht : t = [] ∨ ∃ u, t = u ++ ['/']) (hs : '/' ∉ s) :
    head (t ++ s) = t ∧ baseName (t ++ s) = s := by
  have hsolid : ∀ c ∈ s.reverse, (c != '/') = true := by
    intro c hc
    rw [bne_iff_ne]
    rintro rfl
    exact hs (List.mem_reverse.1 hc)
  rw [head, baseName, List.reverse_append, List.dropWhile_append_of_pos hsolid,
    List.takeWhile_append_of_pos hsolid]
  rcases ht with rfl | ⟨u, rfl⟩
  · simp
  · simp

theorem head_front_append {s : Text} (hs : '/' ∉ s) :
    head (front rooted dirs ++ s) = front rooted dirs :=
  (head_and_baseName_append (front_ends rooted dirs) hs).1

theorem baseName_front_append {s : Text} (hs : '/' ∉ s) :
    baseName (front rooted dirs ++ s) = s :=
  (head_and_baseName_append (front_ends rooted dirs) hs).2

theorem halts_reverse_ofSegments {s : Text} (hs : IsPart s) :
    Text.Halts (· == '/') (ofSegments rooted (dirs ++ [s])).reverse := by
  rw [ofSegments_concat, List.reverse_append,
    Text.halts_append (List.reverse_ne_nil_iff.2 hs.ne_nil)]
  refine Text.halts_of_forall fun c hc => ?_
  rw [beq_eq_false_iff_ne]
  rintro rfl
  exact hs.slash_not_mem (List.mem_reverse.1 hc)

theorem directory_ofSegments (h : ∀ d ∈ dirs.getLast?, IsPart d) {s : Text} (hs : '/' ∉ s) :
    directory (ofSegments rooted (dirs ++ [s])) = ofSegments rooted dirs := by
  rw [ofSegments_concat, directory, head_front_append hs]
  rcases List.eq_nil_or_concat' dirs with rfl | ⟨dirs, d, rfl⟩
  · cases rooted <;> rfl
  · have hd : IsPart d := h d (by simp)
    have hmixed : ¬ (front rooted (dirs ++ [d])).all (· == '/') = true := by
      intro hall
      obtain ⟨c, hc⟩ := List.exists_mem_of_ne_nil d hd.ne_nil
      have hslash := List.all_eq_true.1 hall c (by rw [front_concat, ofSegments_concat]; simp [hc])
      rw [beq_iff_eq] at hslash
      exact hd.slash_not_mem (hslash ▸ hc)
    rw [if_neg hmixed, front_concat, Text.dropRight_append (by simp) (halts_reverse_ofSegments hd)]

theorem startsWith_slash {p : Text} : Text.startsWith p ['/'] = true ↔ p.head? = some '/' := by
  cases p with
  | nil => simp [Text.startsWith]
  | cons c p => simp [Text.startsWith, @eq_comm _ '/' c]

theorem endsWith_slash {p : Text} :
    Text.endsWith p ['/'] = true ↔ p.reverse.head? = some '/' := by
  rw [← startsWith_slash]
  rfl

theorem join_ofSegments (h : ∀ d ∈ dirs.getLast?, IsPart d) {p : Text} (hp : p.head? ≠ some '/') :
    join (ofSegments rooted dirs) p = front rooted dirs ++ p := by
  rw [join, if_neg (mt startsWith_slash.1 hp)]
  rcases List.eq_nil_or_concat' dirs with rfl | ⟨dirs, d, rfl⟩
  · cases rooted <;> rfl
  · have hd : IsPart d := h d (by simp)
    have hne : ofSegments rooted (dirs ++ [d]) ≠ [] := by
      rw [ofSegments_concat]
      exact List.append_ne_nil_of_right_ne_nil _ hd.ne_nil
    have hhalts : Text.Halts (· == '/') (ofSegments rooted (dirs ++ [d])).reverse :=
      halts_reverse_ofSegments hd
    have hend := mt endsWith_slash.1 hhalts.head?_ne
    rw [if_neg (by simp [hne, hend]), front_concat, List.append_assoc, List.singleton_append]

theorem exists_ofSegments {p : Text} (hend : p.reverse.head? ≠ some '/') :
    ∃ segments, (∀ d ∈ segments.getLast?, IsPart d) ∧ p = ofSegments false segments := by
  obtain ⟨dirs, d, hsplit⟩ : ∃ dirs d, Text.splitAt '/' p = dirs ++ [d] :=
    (List.eq_nil_or_concat' _).resolve_left (Text.splitAt_ne_nil '/' p)
  have hp : p = ofSegments false (dirs ++ [d]) := by
    rw [← hsplit]
    exact (Text.joinWith_splitAt '/' p).symm
  rcases eq_or_ne d [] with rfl | hd
  case inl =>
    rw [ofSegments_concat, List.append_nil] at hp
    rcases front_ends false dirs with hfront | ⟨t, hfront⟩
    · exact ⟨[], by simp, hp.trans hfront⟩
    · rw [hp, hfront] at hend
      simp at hend
  case inr =>
    have hslash : '/' ∉ d := Text.not_mem_of_mem_splitAt (by rw [hsplit]; simp)
    refine ⟨dirs ++ [d], fun s hs => ?_, hp⟩
    obtain rfl : d = s := by simpa using hs
    exact ⟨hd, hslash⟩

/-! Normalising. -/

theorem reduce_pass {s : Text} (h : s = [] ∨ s = ['.']) (kept rest : List Text) :
    reduce rooted kept (s :: rest) = reduce rooted kept rest := by
  rw [reduce.eq_def]
  exact if_pos h

theorem reduce_keep {s : Text} (h : IsSegment s) (kept rest : List Text) :
    reduce rooted kept (s :: rest) = reduce rooted (s :: kept) rest := by
  rw [reduce.eq_def]
  exact (if_neg (not_or.2 ⟨h.isPart.ne_nil, h.2.1⟩)).trans (if_neg h.2.2)

theorem reduce_up {s : Text} (h : IsSegment s) (kept rest : List Text) :
    reduce rooted (s :: kept) (['.', '.'] :: rest) = reduce rooted kept rest := by
  rw [reduce.eq_def]
  exact if_neg h.2.2

theorem reduce_append {segments : List Text} (h : ∀ s ∈ segments, IsSegment s)
    (kept rest : List Text) :
    reduce rooted kept (segments ++ rest) = reduce rooted (segments.reverse ++ kept) rest := by
  induction segments generalizing kept with
  | nil => rfl
  | cons s segments ih =>
    rw [List.cons_append, reduce_keep (h s (.head _)), ih fun t ht => h t (.tail _ ht)]
    simp

def climb (levels : Nat) : List Text :=
  if levels = 0 then [['.']] else List.replicate levels ['.', '.']

/-- Going up from a directory leaves its last segments behind. -/
theorem reduce_climb {kept : List Text} (h : ∀ s ∈ kept, IsSegment s) {levels : Nat}
    (hlevels : levels ≤ kept.length) (rest : List Text) :
    reduce rooted kept (climb levels ++ rest) = reduce rooted (kept.drop levels) rest := by
  by_cases hzero : levels = 0
  · rw [climb, if_pos hzero, hzero]
    exact reduce_pass (.inr rfl) kept rest
  rw [climb, if_neg hzero]
  clear hzero
  induction levels generalizing kept with
  | zero => rfl
  | succ levels ih =>
    cases kept with
    | nil => simp at hlevels
    | cons s kept =>
      rw [List.replicate_succ, List.cons_append, reduce_up (h s (.head _))]
      exact ih (fun t ht => h t (.tail _ ht)) (Nat.le_of_succ_le_succ hlevels)

theorem splitAt_front (h : ∀ d ∈ dirs, IsPart d) (p : Text) :
    Text.splitAt '/' (front rooted dirs ++ p) =
      (if rooted then [[]] else []) ++ dirs ++ Text.splitAt '/' p := by
  have hdirs : Text.splitAt '/' ((dirs.map (· ++ ['/'])).flatten ++ p) =
      dirs ++ Text.splitAt '/' p := by
    induction dirs with
    | nil => rfl
    | cons d dirs ih =>
      have ih := ih fun s hs => h s (.tail _ hs)
      rw [List.map_cons, List.flatten_cons, List.append_assoc, List.append_assoc,
        List.singleton_append, Text.splitAt_append (h d (.head _)).slash_not_mem, ih]
      rfl
  rw [front, List.append_assoc]
  cases rooted with
  | false => exact hdirs
  | true => simp [mark, Text.splitAt, hdirs]

theorem rootMark_mark_append {t : Text} (h : t.head? ≠ some '/') :
    rootMark (mark rooted ++ t) = mark rooted := by
  cases t with
  | nil => cases rooted <;> rfl
  | cons c t =>
    have hc : c ≠ '/' := fun hc => h (by rw [hc]; rfl)
    cases rooted <;> simp [mark, rootMark, hc]

theorem normalize_front (h : ∀ d ∈ dirs, IsSegment d) {p : Text} (hp : p.head? ≠ some '/') :
    normalize (front rooted dirs ++ p) =
      if ofSegments rooted (reduce rooted dirs.reverse (Text.splitAt '/' p)).reverse = [] then ['.']
      else ofSegments rooted (reduce rooted dirs.reverse (Text.splitAt '/' p)).reverse := by
  have hparts : ∀ d ∈ dirs, IsPart d := fun d hd => (h d hd).isPart
  have hmark : rootMark (front rooted dirs ++ p) = mark rooted := by
    rw [front, List.append_assoc]
    exact rootMark_mark_append (head?_front_append hparts hp)
  have hrooted : (!(mark rooted).isEmpty) = rooted := by cases rooted <;> rfl
  have hreduce : reduce rooted [] (Text.splitAt '/' (front rooted dirs ++ p)) =
      reduce rooted dirs.reverse (Text.splitAt '/' p) := by
    rw [splitAt_front hparts, List.append_assoc]
    cases rooted with
    | false => simpa using reduce_append h [] _
    | true =>
      rw [if_pos rfl, List.singleton_append, reduce_pass (.inl rfl), reduce_append h,
        List.append_nil]
  simp only [normalize, hmark, hrooted, hreduce, List.isEmpty_iff]
  rfl

theorem exists_climb_eq_cons (levels : Nat) :
    ∃ s rest, climb levels = s :: rest ∧ (s = ['.'] ∨ s = ['.', '.']) := by
  cases levels with
  | zero => exact ⟨_, _, rfl, .inl rfl⟩
  | succ levels => exact ⟨_, _, rfl, .inr rfl⟩

theorem slash_not_mem_climb {levels : Nat} {s : Text} (h : s ∈ climb levels) : '/' ∉ s := by
  unfold climb at h
  split at h
  · rw [List.mem_singleton.1 h]
    decide
  · rw [List.eq_of_mem_replicate h]
    decide

theorem normalize_climb (h : ∀ d ∈ dirs, IsSegment d) {levels : Nat}
    (hlevels : levels ≤ dirs.length) {rest : List Text} (hrest : ∀ s ∈ rest, '/' ∉ s) {kept : List Text}
    (hkept : reduce rooted (dirs.take (dirs.length - levels)).reverse rest = kept.reverse) :
    normalize (join (ofSegments rooted dirs) (Text.joinWith ['/'] (climb levels ++ rest))) =
      if ofSegments rooted kept = [] then ['.'] else ofSegments rooted kept := by
  obtain ⟨s, more, hclimb, hs⟩ := exists_climb_eq_cons levels
  have hhead : (Text.joinWith ['/'] (climb levels ++ rest)).head? ≠ some '/' := by
    rw [hclimb, List.cons_append]
    cases more ++ rest <;> rcases hs with rfl | rfl <;> simp
  have hsplit : Text.splitAt '/' (Text.joinWith ['/'] (climb levels ++ rest)) =
      climb levels ++ rest := by
    refine Text.splitAt_joinWith (by rw [hclimb]; exact List.cons_ne_nil _ _) fun t ht => ?_
    rcases List.mem_append.1 ht with ht | ht
    · exact slash_not_mem_climb ht
    · exact hrest t ht
  have hreverse : ∀ d ∈ dirs.reverse, IsSegment d := fun d hd => h d (List.mem_reverse.1 hd)
  rw [join_ofSegments (fun d hd => (h d (List.mem_of_getLast? hd)).isPart) hhead,
    normalize_front h hhead, hsplit, reduce_climb hreverse (by simpa using hlevels),
    List.drop_reverse, hkept, List.reverse_reverse]

theorem ofSegments_eq_nil {segments : List Text} (h : ∀ s ∈ segments, IsPart s) :
    ofSegments rooted segments = [] ↔ rooted = false ∧ segments = [] := by
  rw [ofSegments, List.append_eq_nil_iff]
  refine and_congr (by cases rooted <;> simp [mark]) ?_
  cases segments with
  | nil => simp
  | cons s rest => simpa using @Text.joinWith_ne_nil ['/'] s (h s (.head _)).ne_nil rest

theorem normalize_climb_append (h : ∀ d ∈ dirs, IsSegment d) {levels : Nat}
    (hlevels : levels ≤ dirs.length) {rest : List Text} (hrest : ∀ s ∈ rest, IsSegment s)
    (hne : rest ≠ []) :
    normalize (join (ofSegments rooted dirs) (Text.joinWith ['/'] (climb levels ++ rest))) =
      ofSegments rooted (dirs.take (dirs.length - levels) ++ rest) := by
  have hkept : reduce rooted (dirs.take (dirs.length - levels)).reverse rest =
      (dirs.take (dirs.length - levels) ++ rest).reverse := by
    have happend := @reduce_append rooted rest hrest
      (dirs.take (dirs.length - levels)).reverse []
    rw [List.append_nil] at happend
    rw [happend, List.reverse_append]
    rfl
  have hparts : ∀ s ∈ dirs.take (dirs.length - levels) ++ rest, IsPart s := by
    intro s hs
    rcases List.mem_append.1 hs with hs | hs
    · exact (h s (List.mem_of_mem_take hs)).isPart
    · exact (hrest s hs).isPart
  rw [normalize_climb h hlevels (fun s hs => (hrest s hs).isPart.slash_not_mem) hkept,
    if_neg fun hnil => hne (List.append_eq_nil_iff.1 ((ofSegments_eq_nil hparts).1 hnil).2).2]

theorem normalize_climb_tail (h : ∀ d ∈ dirs, IsSegment d) {levels : Nat}
    (hlevels : levels ≤ dirs.length) {rest : List Text} (hrest : rest = [] ∨ rest = [[]]) :
    normalize (join (ofSegments rooted dirs) (Text.joinWith ['/'] (climb levels ++ rest))) =
      if ofSegments rooted (dirs.take (dirs.length - levels)) = [] then ['.']
      else ofSegments rooted (dirs.take (dirs.length - levels)) := by
  rcases hrest with rfl | rfl
  · exact normalize_climb h hlevels (by simp) rfl
  · exact normalize_climb h hlevels (by simp) (reduce_pass (.inl rfl) _ [])

theorem ofSegments_injective {segments other : List Text} (hne : segments ≠ []) (hne' : other ≠ [])
    (h : ∀ s ∈ segments, '/' ∉ s) (h' : ∀ s ∈ other, '/' ∉ s)
    (heq : ofSegments rooted segments = ofSegments rooted other) : segments = other := by
  have hjoin := List.append_cancel_left heq
  rw [← Text.splitAt_joinWith hne h, hjoin, Text.splitAt_joinWith hne' h']

theorem normal_of_mem_map {paths : List (List Text)}
    (h : ∀ segments ∈ paths, segments ≠ [] ∧ ∀ s ∈ segments, IsSegment s) :
    ∀ p ∈ paths.map (ofSegments rooted), Normal rooted p := by
  intro p hp
  obtain ⟨segments, hmem, rfl⟩ := List.mem_map.1 hp
  exact ⟨segments, (h segments hmem).1, (h segments hmem).2, rfl⟩

/-- No normalised path begins with a way up. -/
theorem Normal.ne_joinWith_climb {p : Text} (hp : Normal rooted p) (levels : Nat)
    {rest : List Text} (hrest : ∀ s ∈ rest, '/' ∉ s) :
    p ≠ Text.joinWith ['/'] (climb levels ++ rest) := by
  rintro rfl
  obtain ⟨segments, hne, hsegments, heq⟩ := hp
  obtain ⟨s, more, hclimb, hs⟩ := exists_climb_eq_cons levels
  have hslash : ∀ t ∈ climb levels ++ rest, '/' ∉ t := by
    intro t ht
    rcases List.mem_append.1 ht with ht | ht
    · exact slash_not_mem_climb ht
    · exact hrest t ht
  have hfirst : (Text.splitAt '/' (ofSegments rooted segments)).head? = some s := by
    rw [← heq, Text.splitAt_joinWith (by rw [hclimb]; exact List.cons_ne_nil _ _) hslash, hclimb]
    rfl
  cases rooted with
  | true =>
    have hroot : (Text.splitAt '/' (ofSegments true segments)).head? = some [] := by
      simp [ofSegments, mark, Text.splitAt]
    rw [hroot] at hfirst
    rcases hs with rfl | rfl <;> simp at hfirst
  | false =>
    have hplain : Text.splitAt '/' (ofSegments false segments) = segments :=
      Text.splitAt_joinWith hne fun t ht => (hsegments t ht).isPart.slash_not_mem
    rw [hplain] at hfirst
    obtain ⟨_, hdot, hdots⟩ := hsegments s (List.mem_of_mem_head? hfirst)
    rcases hs with rfl | rfl
    · exact hdot rfl
    · exact hdots rfl

/-! Extensions. -/

theorem take_append_dot (stem ending : Text) :
    (stem ++ '.' :: ending).take ((stem ++ '.' :: ending).length - ending.length - 1) = stem := by
  have hlength : (stem ++ '.' :: ending).length - ending.length - 1 = stem.length := by
    rw [List.length_append, List.length_cons]
    omega
  rw [hlength, List.take_left]

theorem splitExtension_eq {p stem ending : Text} (hname : baseName p = stem ++ '.' :: ending)
    (hending : '.' ∉ ending) (hstem : ∃ c ∈ stem, c ≠ '.') :
    splitExtension p = (head p ++ stem, '.' :: ending) := by
  have hsolid : ∀ c ∈ ending.reverse, (c != '.') = true := by
    intro c hc
    rw [bne_iff_ne]
    rintro rfl
    exact hending (List.mem_reverse.1 hc)
  have hcut : ((stem ++ '.' :: ending).reverse.takeWhile (· != '.')).reverse = ending := by
    rw [List.reverse_append, List.reverse_cons, List.append_assoc,
      Text.takeWhile_append_of_halts hsolid (by simp), List.reverse_reverse]
  have hlt : ending.length < (stem ++ '.' :: ending).length := by
    rw [List.length_append, List.length_cons]
    omega
  have hany : stem.any (· != '.') = true := by simpa using hstem
  simp only [splitExtension, hname, hcut, take_append_dot, hany, decide_eq_true hlt, Bool.and_true,
    if_true]

theorem exists_eq_append_dot {name ending : Text}
    (h : (name.reverse.takeWhile (· != '.')).reverse = ending) (hlt : ending.length < name.length) :
    ∃ stem, name = stem ++ '.' :: ending := by
  have hsplit : name.reverse = ending.reverse ++ name.reverse.dropWhile (· != '.') := by
    rw [← h, List.reverse_reverse, List.takeWhile_append_dropWhile]
  cases hrest : name.reverse.dropWhile (· != '.') with
  | nil =>
    rw [hrest, List.append_nil] at hsplit
    have hlength := congrArg List.length hsplit
    rw [List.length_reverse, List.length_reverse] at hlength
    omega
  | cons c t =>
    have hc : c = '.' := by
      have hnot := List.head_dropWhile_not (· != '.') (l := name.reverse) (by simp [hrest])
      simpa [hrest] using hnot
    refine ⟨t.reverse, ?_⟩
    rw [← List.reverse_reverse name, hsplit, hrest, hc]
    simp

theorem exists_of_splitExtension {p : Text} (h : (splitExtension p).2 ≠ []) :
    ∃ stem ending, baseName p = stem ++ '.' :: ending ∧ '.' ∉ ending ∧ ∃ c ∈ stem, c ≠ '.' := by
  simp only [splitExtension] at h
  split at h
  case isFalse => exact absurd rfl h
  case isTrue hcond =>
    obtain ⟨hlt, hany⟩ := Bool.and_eq_true_iff.1 hcond
    have hdots : '.' ∉ ((baseName p).reverse.takeWhile (· != '.')).reverse := by
      intro hdot
      have hmem := List.mem_takeWhile_imp (List.mem_reverse.1 hdot)
      simp at hmem
    generalize hending : ((baseName p).reverse.takeWhile (· != '.')).reverse = ending
      at hlt hany hdots
    obtain ⟨stem, hname⟩ := exists_eq_append_dot hending (of_decide_eq_true hlt)
    rw [hname, take_append_dot] at hany
    exact ⟨stem, ending, hname, hdots, by simpa using hany⟩

end Path

end CodeAtlas
