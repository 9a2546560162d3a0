import OeAware.Collect.CommandBase

/-! @src src/plugin/collect/system/command/command_base.cpp, command_collector.cpp |
    name:CollectThread, PublishThread | scheme:two-threads

    One thread reads lines while another publishes what has been read. A table is regular whenever it is
    published exactly if each line fits where it is read: a row has as many values as the first header of its
    table has names, and that is no more than the arrays are long.

        line line line line ..          publish after any of them
             ▲         ▲

    Lines and rounds of publishing are taken as they come, one after the other. -/

namespace OeAware
open Schemes

namespace CommandBase

inductive Event
  | line (line : Str)
  | publish
  | close

/-- What is published, and the state after it. -/
def step (topic : Topic) (s : State) : Event → Option (List Table × State)
  | .line line => some ([], parseLine topic line s)
  | .publish => publish s
  | .close => some ([], close s)

/-- All that is published. -/
def runEvents (topic : Topic) : State → List Event → Option (List Table)
  | _, [] => some []
  | s, e :: events => do
    let (tables, s) ← step topic s e
    let rest ← runEvents topic s events
    return tables ++ rest

def linesOf (events : List Event) : List Str :=
  events.filterMap (fun e => match e with
    | .line line => some line
    | _ => none)

/-- Nothing is put behind the end of an array, and every table is safe. -/
def AllSafe (topic : Topic) (s : State) (events : List Event) : Prop :=
  ∃ tables, runEvents topic s events = some tables ∧ ∀ t ∈ tables, t.Safe

/-- Each row fits the first header of its table that has names; where there has been a row without values there is
    none. `attrs` are the names there are, `seen` says which tables have rows, `now` is the table that is read. -/
def Aligned (topic : Topic) : (Str → List Str) → (Str → Bool) → Str → List Str → Prop
  | _, _, _, [] => True
  | attrs, seen, now, line :: lines =>
    match readLine topic.topicName line with
    | .skipped => Aligned topic attrs seen now lines
    | .header attr names =>
      let now := topic.getType ++ attr
      if attrs now ≠ [] then Aligned topic attrs seen now lines
      else (seen now = true → names = []) ∧ Aligned topic (Function.update attrs now names) seen now lines
    | .row values => values.length = (attrs now).length ∧ values.length ≤ ATTR_MAX_LENGTH ∧
        Aligned topic attrs (Function.update seen now true) now lines

variable {topic : Topic} {s s' : State} {attrs : Str → List Str} {seen : Str → Bool} {now : Str}

/-! ### Publishing -/

theorem makeTable_eq_some (s : State) (type : Str) (t : Table) : makeTable (s.attrs type) (s.rows type) = some t ↔
    ((s.attrs type).length ≤ ATTR_MAX_LENGTH ∧ ∀ row ∈ s.rows type, row.length ≤ ATTR_MAX_LENGTH) ∧
      t = ⟨s.attrs type, s.rows type⟩ := by
  unfold makeTable
  split
  · rename_i h
    rw [and_iff_right h, Option.some.injEq, eq_comm]
  · rename_i h
    simp [h]

theorem attrs_insertNew (m : UMap Str (List Str)) (k type : Str) :
    ((m.insertNew k []).find type).getD [] = (m.find type).getD [] := by
  rw [UMap.find_insertNew]
  split
  · rename_i h
    obtain ⟨rfl, hcount⟩ := h
    have hnone : m.find type = none := by simpa [UMap.count] using hcount
    rw [hnone]
    rfl
  · rfl

theorem attrs_foldl : ∀ (types : List Str) (m : UMap Str (List Str)) (type : Str),
    ((types.foldl (fun m type => m.insertNew type []) m).find type).getD [] = (m.find type).getD []
  | [], _, _ => rfl
  | k :: types, m, type => by
    rw [List.foldl_cons, attrs_foldl types, attrs_insertNew]

theorem count_foldl : ∀ {types : List Str} {m : UMap Str (List Str)} {type : Str},
    (types.foldl (fun m type => m.insertNew type []) m).count type = true → m.count type = true ∨ type ∈ types
  | [], _, _, h => .inl h
  | k :: types, m, type, h => by
    rw [List.foldl_cons] at h
    rcases count_foldl h with h | h
    · rw [UMap.count, UMap.find_insertNew] at h
      split at h
      · rename_i hk
        exact .inr (hk.1 ▸ List.mem_cons_self)
      · exact .inl h
    · exact .inr (List.mem_cons_of_mem _ h)

theorem mem_pending {type : Str} : type ∈ s.pending ↔ s.rows type ≠ [] := by
  unfold State.pending
  rw [List.mem_filter, decide_eq_true_eq]
  refine and_iff_right_of_imp (fun h => ?_)
  cases hfind : s.datas.find type with
  | none =>
    rw [State.rows, hfind] at h
    exact absurd rfl h
  | some rows => exact UMap.mem_keys_of_find hfind

/-- What is published are the tables with rows. -/
theorem fillDataStruct_eq_some {tables : List Table} : fillDataStruct s = some (tables, s') ↔
    (∀ type, s.rows type ≠ [] → (s.attrs type).length ≤ ATTR_MAX_LENGTH ∧
      ∀ row ∈ s.rows type, row.length ≤ ATTR_MAX_LENGTH) ∧
    tables = s.pending.map (fun type => ⟨s.attrs type, s.rows type⟩) ∧
    s' = { s with
      dataTypes := s.pending.foldl (fun m type => m.insertNew type []) s.dataTypes
      datas := s.datas.mapVal (fun _ _ => []) } := by
  unfold fillDataStruct
  rw [Option.bind_eq_bind, Option.bind_eq_some_iff]
  constructor
  · rintro ⟨tables', htables, hret⟩
    obtain ⟨hall, rfl⟩ := (mapM_eq_some_iff (makeTable_eq_some s)).mp htables
    cases hret
    exact ⟨fun type htype => hall type (mem_pending.mpr htype), rfl, rfl⟩
  · rintro ⟨hall, rfl, rfl⟩
    exact ⟨_, (mapM_eq_some_iff (makeTable_eq_some s)).mpr ⟨fun type h => hall type (mem_pending.mp h), rfl⟩, rfl⟩

theorem allSafe_cons {e : Event} {events : List Event} : AllSafe topic s (e :: events) ↔
    ∃ tables s', step topic s e = some (tables, s') ∧ (∀ t ∈ tables, t.Safe) ∧ AllSafe topic s' events := by
  constructor
  · rintro ⟨all, hrun, hsafe⟩
    rw [runEvents, Option.bind_eq_bind, Option.bind_eq_some_iff] at hrun
    obtain ⟨⟨tables, s'⟩, hstep, hrun⟩ := hrun
    rw [Option.bind_eq_bind, Option.bind_eq_some_iff] at hrun
    obtain ⟨rest, hrest, hret⟩ := hrun
    cases hret
    exact ⟨tables, s', hstep, fun t ht => hsafe t (List.mem_append_left _ ht), rest, hrest,
      fun t ht => hsafe t (List.mem_append_right _ ht)⟩
  · rintro ⟨tables, s', hstep, htables, rest, hrest, hsafe⟩
    refine ⟨tables ++ rest, ?_, fun t ht => ?_⟩
    · rw [runEvents, hstep]
      simp [hrest]
    · rcases List.mem_append.mp ht with h | h
      · exact htables t h
      · exact hsafe t h

/-! ### Lines that fit -/

/-- Whatever has been published so far, this is what there is. -/
structure Follows (s : State) (attrs : Str → List Str) (seen : Str → Bool) (now : Str) : Prop where
  type : s.nowType = now
  names : ∀ k, s.attrs k = attrs k
  fit : ∀ k, ∀ row ∈ s.rows k, row.length = (attrs k).length
  width : ∀ k, seen k = true → (attrs k).length ≤ ATTR_MAX_LENGTH
  known : ∀ k, s.rows k ≠ [] → seen k = true
  vacant : ∀ k, s.dataTypes.count k = true → attrs k = [] → seen k = true

theorem attrs_of_not_count {k : Str} (h : s.dataTypes.count k = false) : s.attrs k = [] := by
  have hnone : s.dataTypes.find k = none := by simpa [UMap.count] using h
  rw [State.attrs, hnone]
  rfl

theorem parseLine_skipped {line : Str} (h : readLine topic.topicName line = .skipped) : parseLine topic line s = s := by
  rw [parseLine, h]

theorem parseLine_row {line : Str} {values : List Str} (h : readLine topic.topicName line = .row values) :
    parseLine topic line s = { s with datas := s.datas.push s.nowType values, hasNewData := true } := by
  rw [parseLine, h]

theorem parseLine_header {line attr : Str} {names : List Str} (h : readLine topic.topicName line = .header attr names) :
    parseLine topic line s =
      if s.dataTypes.count (topic.getType ++ attr) then { s with nowType := topic.getType ++ attr }
      else { s with
        nowType := topic.getType ++ attr
        dataTypes := s.dataTypes.pushAll (topic.getType ++ attr) names } := by
  rw [parseLine, h]

theorem rows_push (values : List Str) (k : Str) : State.rows { s with datas := s.datas.push s.nowType values, hasNewData := true } k =
    if k = s.nowType then s.rows k ++ [values] else s.rows k := by
  unfold State.rows
  rw [UMap.find_push]
  split
  · rename_i h
    rw [h]
    rfl
  · rfl

/-- The names after a header. -/
def named (attrs : Str → List Str) (type : Str) (names : List Str) : Str → List Str :=
  if attrs type ≠ [] then attrs else Function.update attrs type names

theorem named_eq_self {type : Str} {names : List Str} (h : attrs type ≠ [] ∨ names = []) :
    named attrs type names = attrs := by
  unfold named
  split
  · rfl
  · rename_i hnone
    rw [h.resolve_left hnone, ← not_not.mp hnone, Function.update_eq_self]

theorem Follows.header (h : Follows s attrs seen now) {line attr : Str} {names : List Str}
    (hline : readLine topic.topicName line = .header attr names)
    (hnames : attrs (topic.getType ++ attr) = [] → seen (topic.getType ++ attr) = true → names = []) :
    Follows (parseLine topic line s) (named attrs (topic.getType ++ attr) names) seen (topic.getType ++ attr) := by
  rw [parseLine_header hline]
  generalize topic.getType ++ attr = type at hnames ⊢
  by_cases hsame : attrs type ≠ [] ∨ names = []
  · -- nothing is added
    rw [named_eq_self hsame]
    split
    · exact ⟨rfl, h.names, h.fit, h.width, h.known, h.vacant⟩
    · rename_i hcount
      have hnone : names = [] :=
        hsame.resolve_left (fun hne => hne (by rw [← h.names, attrs_of_not_count (by simpa using hcount)]))
      rw [hnone, UMap.pushAll_nil]
      exact ⟨rfl, h.names, h.fit, h.width, h.known, h.vacant⟩
  · rw [not_or, not_not] at hsame
    obtain ⟨hattrs, hne⟩ := hsame
    have hseen : seen type ≠ true := fun hs => hne (hnames hattrs hs)
    have hcount : s.dataTypes.count type = false := by
      by_contra hc
      exact hseen (h.vacant type (by simpa using hc) hattrs)
    have hfind := s.dataTypes.find_pushAll (k := type) hne
    have hnone : s.dataTypes.find type = none := by simpa [UMap.count] using hcount
    rw [hcount, if_neg Bool.false_ne_true, named, if_neg (not_not.mpr hattrs)]
    refine ⟨rfl, fun k => ?_, fun k row hrow => ?_, fun k hk => ?_, h.known, fun k hk hnil => ?_⟩
    · unfold State.attrs
      rw [hfind]
      by_cases hkt : k = type
      · subst hkt
        rw [if_pos rfl, Function.update_self, hnone]
        rfl
      · rw [if_neg hkt, Function.update_of_ne hkt]
        exact h.names k
    · have hkt : k ≠ type := by
        rintro rfl
        exact hseen (h.known k (List.ne_nil_of_mem hrow))
      rw [Function.update_of_ne hkt]
      exact h.fit k row hrow
    · have hkt : k ≠ type := fun hkt => hseen (hkt ▸ hk)
      rw [Function.update_of_ne hkt]
      exact h.width k hk
    · have hkt : k ≠ type := by
        rintro rfl
        rw [Function.update_self] at hnil
        exact hne hnil
      rw [Function.update_of_ne hkt] at hnil
      refine h.vacant k ?_ hnil
      rwa [UMap.count, hfind, if_neg hkt] at hk

theorem Follows.row (h : Follows s attrs seen now) {line : Str} {values : List Str}
    (hline : readLine topic.topicName line = .row values) (hlen : values.length = (attrs now).length)
    (hmax : values.length ≤ ATTR_MAX_LENGTH) :
    Follows (parseLine topic line s) attrs (Function.update seen now true) now := by
  have htype := h.type
  subst htype
  have hseen : ∀ k, seen k = true → Function.update seen s.nowType true k = true := by
    intro k hk
    by_cases hkn : k = s.nowType
    · rw [hkn, Function.update_self]
    · rw [Function.update_of_ne hkn, hk]
  rw [parseLine_row hline]
  refine ⟨rfl, h.names, fun k row hrow => ?_, fun k hk => ?_, fun k hk => ?_, fun k hk hnil => hseen k (h.vacant k hk hnil)⟩
  · rw [rows_push] at hrow
    split at hrow
    · rename_i hkn
      rcases List.mem_append.mp hrow with hrow | hrow
      · exact h.fit k row hrow
      · rw [List.mem_singleton.mp hrow, hkn, hlen]
    · exact h.fit k row hrow
  · by_cases hkn : k = s.nowType
    · rw [hkn, ← hlen]
      exact hmax
    · rw [Function.update_of_ne hkn] at hk
      exact h.width k hk
  · rw [rows_push] at hk
    split at hk
    · rename_i hkn
      rw [hkn, Function.update_self]
    · exact hseen k (h.known k hk)

theorem Follows.publish (h : Follows s attrs seen now) : ∃ tables s', publish s = some (tables, s') ∧
    (∀ t ∈ tables, t.Safe) ∧ Follows s' attrs seen now := by
  unfold CommandBase.publish
  split
  · refine ⟨_, _, fillDataStruct_eq_some.mpr ⟨fun type htype => ?_, rfl, rfl⟩, fun t ht => ?_, ?_⟩
    · have hwidth := h.width type (h.known type htype)
      refine ⟨?_, fun row hrow => (h.fit type row hrow).trans_le hwidth⟩
      rw [show State.attrs { s with hasNewData := false } type = attrs type from h.names type]
      exact hwidth
    · obtain ⟨type, htype, rfl⟩ := List.mem_map.mp ht
      have hnames : State.attrs { s with hasNewData := false } type = attrs type := h.names type
      refine Table.Regular.safe ⟨?_, fun row hrow => ?_⟩
      · rw [hnames]
        exact h.width type (h.known type (mem_pending.mp htype))
      · rw [hnames]
        exact h.fit type row hrow
    · have hrows : ∀ k, ((s.datas.mapVal (fun _ _ => ([] : List (List Str)))).find k).getD [] = [] := by
        intro k
        rw [UMap.find_mapVal]
        cases s.datas.find k <;> rfl
      refine ⟨h.type, fun k => (attrs_foldl _ _ k).trans (h.names k), fun k row hrow => ?_, h.width, fun k hk => ?_,
        fun k hk hnil => ?_⟩
      · rw [State.rows, hrows] at hrow
        cases hrow
      · exact absurd (hrows k) hk
      · rcases count_foldl hk with hk | hk
        · exact h.vacant k hk hnil
        · exact h.known k (mem_pending.mp hk)
  · exact ⟨[], s, rfl, by simp, h⟩

theorem Follows.close (h : Follows s attrs seen now) : Follows (close s) attrs seen now := by
  refine ⟨h.type, h.names, fun k row hrow => ?_, h.width, fun k hk => absurd rfl hk, h.vacant⟩
  have hnone : row ∈ ([] : List (List Str)) := hrow
  cases hnone

/-- Where the lines fit, whatever is published is safe. -/
theorem Follows.allSafe : ∀ {events : List Event} {s : State} {attrs : Str → List Str} {seen : Str → Bool} {now : Str},
    Follows s attrs seen now → Aligned topic attrs seen now (linesOf events) → AllSafe topic s events
  | [], _, _, _, _, _, _ => ⟨[], rfl, by simp⟩
  | .publish :: events, s, attrs, seen, now, h, hal => by
    obtain ⟨tables, s', hstep, hsafe, h'⟩ := h.publish
    exact allSafe_cons.mpr ⟨tables, s', hstep, hsafe, h'.allSafe hal⟩
  | .close :: events, s, attrs, seen, now, h, hal =>
    allSafe_cons.mpr ⟨[], _, rfl, by simp, h.close.allSafe hal⟩
  | .line line :: events, s, attrs, seen, now, h, hal => by
    refine allSafe_cons.mpr ⟨[], _, rfl, by simp, ?_⟩
    have hal' : Aligned topic attrs seen now (line :: linesOf events) := hal
    rw [Aligned] at hal'
    cases hline : readLine topic.topicName line with
    | skipped =>
      rw [hline] at hal'
      rw [parseLine_skipped hline]
      exact h.allSafe hal'
    | header attr names =>
      rw [hline] at hal'
      dsimp only at hal'
      split at hal'
      · rename_i hne
        have hnext := h.header hline (fun hnil => absurd hnil hne)
        rw [named, if_pos hne] at hnext
        exact hnext.allSafe hal'
      · rename_i hnil
        have hnext := h.header hline (fun _ => hal'.1)
        rw [named, if_neg hnil] at hnext
        exact hnext.allSafe hal'.2
    | row values =>
      rw [hline] at hal'
      exact (h.row hline hal'.1 hal'.2.1).allSafe hal'.2.2

/-! ### Lines that do not -/

/-- Nothing has been published so far. -/
structure Unpublished (s : State) (attrs : Str → List Str) (seen : Str → Bool) (now : Str) : Prop extends
    Follows s attrs seen now where
  pending : ∀ k, seen k = true → s.rows k ≠ []
  counted : ∀ k, s.dataTypes.count k = true → attrs k ≠ []
  fresh : ∀ k, s.rows k ≠ [] → s.hasNewData = true

/-- A table that is published now is regular. -/
theorem regular_of_publish {events : List Event} {type : Str} (h : AllSafe topic s (.publish :: events))
    (hnew : s.hasNewData = true) (hrows : s.rows type ≠ []) : Table.Regular ⟨s.attrs type, s.rows type⟩ := by
  obtain ⟨tables, s', hstep, hsafe, -⟩ := allSafe_cons.mp h
  have hfill : fillDataStruct { s with hasNewData := false } = some (tables, s') := by
    rw [← hstep]
    exact (if_pos hnew).symm
  obtain ⟨-, rfl, -⟩ := fillDataStruct_eq_some.mp hfill
  have hmem : type ∈ State.pending { s with hasNewData := false } := mem_pending.mpr hrows
  exact (hsafe _ (List.mem_map.mpr ⟨type, hmem, rfl⟩)).1

theorem linesOf_line (lines : List Str) : linesOf (lines.map .line) = lines := by
  induction lines with
  | nil => rfl
  | cons line lines ih => exact congrArg _ ih

theorem Unpublished.header (h : Unpublished s attrs seen now) {line attr : Str} {names : List Str}
    (hline : readLine topic.topicName line = .header attr names)
    (hnames : attrs (topic.getType ++ attr) = [] → seen (topic.getType ++ attr) = true → names = []) :
    Unpublished (parseLine topic line s) (named attrs (topic.getType ++ attr) names) seen (topic.getType ++ attr) := by
  have hfollows := h.toFollows.header hline hnames
  rw [parseLine_header hline] at hfollows ⊢
  generalize topic.getType ++ attr = type at hfollows hnames ⊢
  split
  · rename_i hcount
    rw [if_pos hcount] at hfollows
    have hsame : named _ _ names = _ := named_eq_self (.inl (h.counted type hcount))
    refine ⟨hfollows, h.pending, fun k hk => ?_, h.fresh⟩
    rw [hsame]
    exact h.counted k hk
  · rename_i hcount
    rw [if_neg hcount] at hfollows
    refine ⟨hfollows, h.pending, fun k hk => ?_, h.fresh⟩
    rw [← hfollows.names]
    by_cases hnone : names = []
    · rw [hnone, UMap.pushAll_nil] at hk ⊢
      have hne := h.counted k hk
      rwa [← h.names] at hne
    · have hfind := s.dataTypes.find_pushAll (k := type) hnone
      unfold State.attrs
      rw [hfind]
      split
      · simp [hnone]
      · rename_i hkt
        rw [UMap.count, hfind, if_neg hkt] at hk
        have hne := h.counted k hk
        rwa [← h.names] at hne

theorem Unpublished.row (h : Unpublished s attrs seen now) {line : Str} {values : List Str}
    (hline : readLine topic.topicName line = .row values) (hlen : values.length = (attrs now).length)
    (hmax : values.length ≤ ATTR_MAX_LENGTH) :
    Unpublished (parseLine topic line s) attrs (Function.update seen now true) now := by
  have hfollows := h.toFollows.row hline hlen hmax
  have htype := h.type
  subst htype
  rw [parseLine_row hline] at hfollows ⊢
  refine ⟨hfollows, fun k hk => ?_, h.counted, fun _ _ => rfl⟩
  rw [rows_push]
  split
  · simp
  · rename_i hkn
    rw [Function.update_of_ne hkn] at hk
    exact h.pending k hk

/-- Where whatever is published is safe, the lines fit. -/
theorem Unpublished.aligned : ∀ {lines : List Str} {s : State} {attrs : Str → List Str} {seen : Str → Bool} {now : Str},
    Unpublished s attrs seen now → (∀ events, linesOf events = lines → AllSafe topic s events) →
    Aligned topic attrs seen now lines
  | [], _, _, _, _, _, _ => trivial
  | line :: lines, s, attrs, seen, now, h, hall => by
    have hnext : ∀ events, linesOf events = lines → AllSafe topic (parseLine topic line s) events := by
      intro events hevents
      obtain ⟨tables, s', hstep, -, hsafe⟩ := allSafe_cons.mp (hall (.line line :: events) (congrArg _ hevents))
      cases hstep
      exact hsafe
    -- in the worst case what there is now is published
    have hpublish := hnext (.publish :: lines.map .line) (linesOf_line lines)
    rw [Aligned]
    cases hline : readLine topic.topicName line with
    | skipped =>
      rw [parseLine_skipped hline] at hnext
      exact h.aligned hnext
    | header attr names =>
      have hnames : attrs (topic.getType ++ attr) = [] → seen (topic.getType ++ attr) = true → names = [] := by
        intro hnil hseen
        by_contra hne
        have hcount : s.dataTypes.count (topic.getType ++ attr) = false := by
          by_contra hc
          exact h.counted _ (by simpa using hc) hnil
        have hnone : s.dataTypes.find (topic.getType ++ attr) = none := by simpa [UMap.count] using hcount
        have hrows := h.pending _ hseen
        obtain ⟨row, hrow⟩ := List.exists_mem_of_ne_nil _ hrows
        rw [parseLine_header hline, hcount, if_neg Bool.false_ne_true] at hpublish
        have hregular := regular_of_publish hpublish (h.fresh _ hrows) hrows
        have hlen := hregular.2 row hrow
        have hattrs : State.attrs { s with
            nowType := topic.getType ++ attr
            dataTypes := s.dataTypes.pushAll (topic.getType ++ attr) names } (topic.getType ++ attr) = names := by
          unfold State.attrs
          rw [s.dataTypes.find_pushAll hne, if_pos rfl, hnone]
          rfl
        rw [hattrs, h.fit _ row hrow, hnil] at hlen
        exact hne (List.length_eq_zero_iff.mp hlen.symm)
      have hstep := (h.header hline hnames).aligned hnext
      dsimp only
      unfold named at hstep
      split
      · rename_i hne
        rwa [if_pos hne] at hstep
      · rename_i hnil
        rw [if_neg hnil] at hstep
        exact ⟨hnames (not_not.mp hnil), hstep⟩
    | row values =>
      have htype := h.type
      subst htype
      have hmem : values ∈ State.rows (parseLine topic line s) s.nowType := by
        rw [parseLine_row hline, rows_push, if_pos rfl]
        simp
      have hnew : (parseLine topic line s).hasNewData = true := by rw [parseLine_row hline]
      have hregular := regular_of_publish hpublish hnew (List.ne_nil_of_mem hmem)
      have hattrs : State.attrs (parseLine topic line s) s.nowType = attrs s.nowType := by
        rw [parseLine_row hline]
        exact h.names _
      have hlen : values.length = (attrs s.nowType).length := hattrs ▸ hregular.2 values hmem
      have hmax : values.length ≤ ATTR_MAX_LENGTH := (hregular.2 values hmem).trans_le hregular.1
      exact ⟨hlen, hmax, (h.row hline hlen hmax).aligned hnext⟩

theorem unpublished_init : Unpublished .init (fun _ => []) (fun _ => false) [] where
  type := rfl
  names _ := rfl
  fit _ _ hrow := by cases hrow
  width _ hk := by cases hk
  known _ hk := absurd rfl hk
  vacant _ hk := by cases hk
  pending _ hk := by cases hk
  counted _ hk := by cases hk
  fresh _ hk := absurd rfl hk

/-- A header and a row, and a row with a value too many. -/
def sampleOutput : Str := str "Device r/s
sda 1.0
sdb 2.0 3.0
"

def sampleLines : List Str := [str "Device r/s\n", str "sda 1.0\n", str "sdb 2.0 3.0\n"]

end CommandBase
end OeAware
