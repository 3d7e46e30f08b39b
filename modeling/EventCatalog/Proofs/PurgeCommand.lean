import EventCatalog.Cli.Run
import EventCatalog.Index.Stored
import EventCatalog.Proofs.Numerals
import EventCatalog.Proofs.Purging
import EventCatalog.Proofs.Restarts

/-!
# The purge command

A command opens the index of a directory, works on it, and closes it again. It may find what any catalog has
left behind, which is an index of events with its numbers in order (`Directory.Sound`), and leaves such an
index itself (`Job.sound_run`). Nothing is staged in an index that has just been opened, and no removal is
under way, so a purge takes its events from those that the directory holds (`Directory.Opened`).

The number of days that the operator gives passes three limits. Its milliseconds have to fit into 64 bits,
or the command is aborted (`Span.ofDays?_eq_none_iff`). A negative number of days is refused by the catalog.
And if the instant so many days ago is before all times, there is nothing to remove. `Job.run_purge` puts
them together.

The catalog has only the last two limits. A number of days that is beyond the first one is an age like any other
for it, so to abort the command is a fault (`Job.run_purge_aborted`).
-/

namespace EventCatalog

/-! ### Numbers of days -/

/-- A number of days is too long for a span from this one on. -/
theorem Span.ofDays?_eq_none_iff {days : Int} : ofDays? days = none ↔ 106751991167 < days.natAbs := by
  -- the milliseconds of the first such number are the first that do not fit into 64 bits
  unfold ofDays? ofDays
  split
  · next hfits =>
    refine iff_of_false (Option.some_ne_none _) ?_
    simp only at hfits
    omega
  · next hlong =>
    refine iff_of_true rfl ?_
    simp only at hlong
    omega

theorem Span.ofDays?_eq_some {days : Int} (h : days.natAbs ≤ 106751991167) :
    ofDays? days = some (ofDays days) := by
  unfold ofDays? ofDays
  rw [if_pos]
  simp only
  omega

theorem Span.nanos_ofDays (days : Int) : (ofDays days).duration.nanos = days * 86400000000000 := by
  unfold ofDays duration
  simp only
  omega

/-- A negative number of days is written in seconds. -/
theorem Duration.render_ofDays {days : Int} (h : days < 0) :
    (Span.ofDays days).duration.render = "-PT" ++ toString (days.natAbs * 86400) ++ "S" := by
  have hnanos := Span.nanos_ofDays days
  have hwhole : (days * 86400000000000).natAbs % 1000000000 = 0 := by omega
  have hseconds : (days * 86400000000000).natAbs / 1000000000 = days.natAbs * 86400 := by omega
  -- a whole number of seconds has no fraction to be written
  have hzeros : (Text.padded 9 0).reverse.dropWhile (· == '0') = [] := by decide
  unfold render
  simp only [hnanos, hwhole, hseconds, hzeros]
  rw [if_neg (by omega), if_pos (by omega)]
  change "-" ++ "PT" ++ _ ++ "" ++ "S" = _
  rw [String.append_empty]
  rfl

/-! ### Directories -/

/-- An index of events with its numbers in order, as a catalog leaves it behind. -/
structure Index.Sound (ix : Index) : Prop where
  schema_eq : ix.schema = .events
  stored : Segment.OfEvents ix.segments
  ids_nodup : (ix.segments.map Segment.id).Nodup
  id_lt : ∀ s ∈ ix.segments, s.id < ix.nextId
  stamp_le : ∀ s ∈ ix.segments, ∀ n, s.deleteStamp = some n → n ≤ ix.stamp

theorem Index.stored_rewound (ix : Index) : ix.rewound.stored = ix.stored := by
  unfold stored rewound
  simp only [List.map_map]
  rfl

theorem Index.documents_rewound (ix : Index) : ix.rewound.documents = ix.documents := by
  rw [documents, documents, List.flatMap_def, List.flatMap_def, map_live_rewound]

namespace Directory

/-- If there is an index in the directory, a catalog may have left it behind. -/
def Sound : Directory → Prop
  | .index ix => ix.Sound
  | _ => True

/-- The events that the directory holds. -/
def events : Directory → List Event
  | .index ix => Document.events ix.documents
  | _ => []

/-- The catalog has been opened on the directory: it shows what the directory holds, with nothing staged. -/
structure Opened (d : Directory) (c : Catalog) : Prop where
  current : c.Current
  overlaid : c.Overlaid 0
  additions_eq : c.writer.additions = []
  visible_eq : c.visible = d.events
  text_eq : ∀ text, d.text? = some text → c.close.text? = some text

theorem opened_ofIndex {name : String} {config : SearchConfig} {ix : Index} {locked : Bool} {c : Catalog}
    (hix : ix.Sound) (hconfig : config.rejections = []) (h : Catalog.ofIndex name config ix locked = .ok c) :
    (Directory.index ix).Opened c := by
  have hevents := Catalog.ofEvents_ofIndex hconfig hix.schema_eq hix.stored h
  have hnumbered := Catalog.numbered_ofIndex hix.ids_nodup hix.id_lt hix.stamp_le h
  have hcurrent := Catalog.current_ofIndex hevents hnumbered h
  have hoverlaid := Catalog.overlaid_ofIndex hnumbered h
  obtain rfl := Catalog.eq_of_ofIndex h
  refine ⟨hcurrent, hoverlaid, rfl, congrArg Document.events ix.documents_rewound, fun text htext => ?_⟩
  -- how far segments have got with removals is not written down
  change some ix.rewound.stored.render = some text
  rw [ix.stored_rewound]
  exact htext

/-- What is opened is the index of the directory, or an empty one that has been made. -/
theorem exists_ofIndex {d : Directory} {name : String} {config : SearchConfig} {locked : Bool} {c : Catalog}
    (h : Catalog.openDirectory name config d locked = .ok c) :
    config.rejections = [] ∧ ∃ ix, Catalog.ofIndex name config ix locked = .ok c ∧
      (d = .index ix ∨ d = .absent ∧ ix = .empty .events) := by
  obtain ⟨_, hvalid, hix⟩ := Except.bind_eq_ok.1 h
  refine ⟨Catalog.rejections_of_validateConfig hvalid, ?_⟩
  -- what is neither an index nor absent cannot be opened
  cases d with
  | index ix => exact ⟨ix, hix, .inl rfl⟩
  | absent => exact ⟨_, hix, .inr ⟨rfl, rfl⟩⟩
  | file => exact nomatch hix
  | unreadable => exact nomatch hix

theorem name_of_openDirectory {d : Directory} {name : String} {config : SearchConfig} {locked : Bool}
    {c : Catalog} (h : Catalog.openDirectory name config d locked = .ok c) : c.name = name := by
  obtain ⟨-, ix, hix, -⟩ := exists_ofIndex h
  obtain rfl := Catalog.eq_of_ofIndex hix
  rfl

/-- **What a catalog left behind** is opened as it was left. -/
theorem Sound.opened {d : Directory} (hd : d.Sound) {name : String} {config : SearchConfig} {locked : Bool}
    {c : Catalog} (h : Catalog.openDirectory name config d locked = .ok c) : d.Opened c := by
  obtain ⟨hconfig, ix, hix, rfl | ⟨rfl, rfl⟩⟩ := exists_ofIndex h
  · exact opened_ofIndex hd hconfig hix
  · have hempty : (Index.empty .events).Sound :=
      ⟨rfl, fun _ hs => absurd hs List.not_mem_nil, .nil, fun _ hs => absurd hs List.not_mem_nil,
        fun _ hs => absurd hs List.not_mem_nil⟩
    -- where there was no index, there was no text of it either
    exact { opened_ofIndex hempty hconfig hix with text_eq := fun _ htext => nomatch htext }

/-- Whatever events are given, a directory may hold them. -/
theorem sound_indexOf (events : List Event) : (Directory.index (Catalog.indexOf events)).Sound where
  schema_eq := rfl
  stored := Catalog.stored_indexOf events
  ids_nodup := List.nodup_singleton 0
  id_lt := by
    intro s hs
    rw [List.mem_singleton.1 hs]
    exact Nat.zero_lt_one
  stamp_le := by
    intro s hs n hn
    rw [List.mem_singleton.1 hs] at hn
    exact nomatch hn

theorem events_indexOf (events : List Event) :
    (Directory.index (Catalog.indexOf events)).events = events := by
  change Document.events (Index.documents (Catalog.indexOf events)) = events
  rw [Catalog.documents_indexOf, Document.events_map_ofEvent]

end Directory

namespace Catalog

variable {c : Catalog}

/-- **A catalog leaves behind** a sound index, with the events that its readers see. -/
theorem Current.sound_close (h : c.Current) : c.close.Sound :=
  ⟨h.events.schema_eq, h.events.stored, h.numbered.ids_nodup, h.numbered.id_lt,
    fun s hs n hn => (h.numbered.stamp_le s hs n hn).1⟩

theorem Current.events_close (h : c.Current) : c.close.events = c.visible :=
  (congrArg Document.events h.shows.documents).symm

theorem additions_purgeOlder (h : c.writer.additions = []) (now : Instant) (age : Duration) :
    (c.purgeOlder now age).2.writer.additions = [] := by
  unfold purgeOlder
  split
  · exact h
  · split
    · exact h
    · unfold deleteSelected
      split
      · exact additions_commit _ now true
      · exact h

end Catalog

/-- **A purge of what was opened** leaves of the events in the directory those that it spares. -/
theorem Directory.Opened.purgeOlder {d : Directory} {c : Catalog} (h : d.Opened c) (now : Instant)
    {age : Duration} (hage : 0 ≤ age.nanos) :
    (c.purgeOlder now age).1 = .ok () ∧
      (c.purgeOlder now age).2.close.events.Perm (d.events.filter (Catalog.isSpared now age)) := by
  have hevents := h.current.events
  constructor
  · rw [c.purgeOlder_of_nonneg now hage]
    split
    · rfl
    · exact hevents.deleteSelected_ok now rfl
  · have hpurged : (c.purgeOlder now age).2.Current := h.current.apply (.purge now age)
    -- nothing is staged, before or after, so what is pending is what readers see
    have hspared := h.overlaid.pending_purgeOlder hevents now hage
    rw [Catalog.pending_of_additions_eq_nil (Catalog.additions_purgeOlder h.additions_eq now age),
      Catalog.pending_of_additions_eq_nil h.additions_eq, h.visible_eq] at hspared
    rw [hpurged.events_close]
    exact hspared

namespace Cli

/-! ### Commands -/

/-- What a command does to a catalog is one change, if it is any. -/
theorem IndexCommand.exists_changes (command : IndexCommand) (now : Instant) (c : Catalog) :
    ∃ changes : List Change, (command.run now c).2 = changes.foldl Change.apply c := by
  cases command with
  | list request => exact ⟨[], rfl⟩
  | get uuid =>
    refine ⟨[], ?_⟩
    simp only [run]
    split <;> rfl
  | severities tags => exact ⟨[], rfl⟩
  | worst tags => exact ⟨[], rfl⟩
  | purge days =>
    simp only [run]
    split
    · next span _ => exact ⟨[.purge now span.duration], rfl⟩
    · exact ⟨[], rfl⟩
  | clear => exact ⟨[.clear now], rfl⟩
  | optimize => exact ⟨[.run (.optimize now)], rfl⟩
  | stats => exact ⟨[], rfl⟩

namespace Job

variable {job : Job} {command : IndexCommand} {now : Instant} {d : Directory} {c : Catalog}

theorem run_of_opened (hjob : job.command = .onIndex command)
    (hopen : Catalog.openDirectory job.name job.config.search d false = .ok c) :
    job.run now d = ((command.run now c).1, (command.run now c).2.close) := by
  simp only [run, hjob, hopen]

/-- **A command leaves a directory** that another one may find. -/
theorem sound_run (job : Job) (now : Instant) (hd : d.Sound) : (job.run now d).2.Sound := by
  unfold run
  split
  · exact hd
  · next command _ =>
    split
    · exact hd
    -- a sound index is opened, changed and closed
    · next c hopen =>
      obtain ⟨changes, hchanges⟩ := command.exists_changes now c
      simp only [hchanges]
      exact ((hd.opened hopen).current.changes changes).sound_close

/-- Every number of days can be given on the command line. A sign is no obstacle if the number is attached. -/
theorem parse_purge (days : Int64) :
    Command.parse "purge" ["--days=" ++ toString days.toInt] = .ok (.onIndex (.purge days)) := by
  have harg : Argument.ofText ("--days=" ++ toString days.toInt) =
      .long "days".toList (some (toString days.toInt).toList) := by
    rw [Argument.ofText, String.toList_append]
    rfl
  have hscan : scanOptions [.value "days" (some 'd') false] ["--days=" ++ toString days.toInt] =
      .ok { options := [("days", String.ofList (toString days.toInt).toList)] } := by
    simp only [scanOptions, scan, harg]
    rfl
  have hread : Scanned.read "days" Text.int64Of? (toString days.toInt) = .ok days := by
    rw [Scanned.read, Text.int64Of?_toInt]
    rfl
  -- the only value that is given is read, and makes the command
  change Command.onIndex <$> parsePurge _ = _
  rw [parsePurge, hscan, String.ofList_toList]
  change Command.onIndex <$> ((some <$> Scanned.read "days" Text.int64Of? (toString days.toInt)) >>= _) = _
  rw [hread]
  rfl

section Purge

variable {days : Int64} (hjob : job.command = .onIndex (.purge days))
  (hopen : Catalog.openDirectory job.name job.config.search d false = .ok c)

include hjob hopen

theorem run_purge_of_long (now : Instant) (h : 106751991167 < days.toInt.natAbs) :
    job.run now d = (.aborted, c.close) := by
  rw [run_of_opened hjob hopen]
  simp only [IndexCommand.run, Span.ofDays?_eq_none_iff.2 h]

theorem run_purge_of_span (now : Instant) (h : days.toInt.natAbs ≤ 106751991167) :
    let outcome := c.purgeOlder now (Span.ofDays days.toInt).duration
    job.run now d = (.ofOutcome (fun _ => outcome.2.stats.toJson) outcome.1, outcome.2.close) := by
  rw [run_of_opened hjob hopen]
  simp only [IndexCommand.run, Span.ofDays?_eq_some h]
  rfl

theorem run_purge_of_neg (now : Instant) (h : days.toInt.natAbs ≤ 106751991167) (hneg : days.toInt < 0) :
    job.run now d = (.failed ("Invalid argument: purge duration must not be negative: -PT" ++
      toString (days.toInt.natAbs * 86400) ++ "S"), c.close) := by
  have hnanos : (Span.ofDays days.toInt).duration.nanos < 0 := by
    rw [Span.nanos_ofDays]
    omega
  have hmessage : (CatalogError.ofText .invalidArgument ("purge duration must not be negative: " ++
      (Span.ofDays days.toInt).duration.render)).message =
      "Invalid argument: purge duration must not be negative: -PT" ++
        toString (days.toInt.natAbs * 86400) ++ "S" := by
    rw [Duration.render_ofDays hneg]
    -- the kind of the error begins the message, and the span of time ends it
    change "Invalid argument" ++ ": " ++ ("purge duration must not be negative: " ++ _) = _
    simp only [← String.append_assoc]
    rfl
  rw [run_purge_of_span hjob hopen now h, c.purgeOlder_of_neg now hnanos, ← hmessage]
  rfl

theorem run_purge_of_nonneg (now : Instant) (hd : d.Sound) (h : days.toInt ≤ 106751991167)
    (hnonneg : 0 ≤ days.toInt) :
    let ago := now.totalNanos - days.toInt * 86400000000000
    ∃ purged : Catalog, job.run now d = (.printed purged.stats.toJson, purged.close) ∧
      purged.stats.name = job.name ∧ purged.stats.documents = purged.close.events.length ∧
      purged.close.events.Perm (d.events.filter fun e =>
        ago < Instant.firstSecond * 1000000000 || ago / 1000000 < e.lastSeen.millis) := by
  intro ago
  have hopened := hd.opened hopen
  have hnanos := Span.nanos_ofDays days.toInt
  have hage : 0 ≤ (Span.ofDays days.toInt).duration.nanos := by omega
  obtain ⟨hok, hleft⟩ := hopened.purgeOlder now hage
  -- readers are up to date after the purge as well, so the statistics count what is written
  have hpurged : (c.purgeOlder now (Span.ofDays days.toInt).duration).2.Current :=
    hopened.current.apply (.purge now _)
  refine ⟨(c.purgeOlder now (Span.ofDays days.toInt).duration).2, ?_, ?_, ?_, ?_⟩
  -- the catalog does not refuse the age, so the command goes on to the statistics
  · rw [run_purge_of_span hjob hopen now (by omega), hok]
    rfl
  · exact (Catalog.settings_changes ⟨Directory.name_of_openDirectory hopen, rfl⟩ [.purge now _]).1
  · rw [hpurged.events_close]
    exact hpurged.events.holdsEvents.documents_stats
  · refine hleft.trans (.of_eq (List.filter_congr fun e _ => ?_))
    rw [Catalog.isSpared, hnanos]

end Purge

/-- **The purge command.** An index that cannot be opened is reported. If the number of days is longer than
any span of time, the command is aborted; if it is negative, that is reported; in both cases the index is
closed as it was opened. With any other number of days the command prints the statistics and leaves the
events that were last seen in a later millisecond than the instant so many days ago, or all events if that
is before all times. -/
theorem run_purge {days : Int64} (hjob : job.command = .onIndex (.purge days)) (now : Instant) (hd : d.Sound) :
    let ago := now.totalNanos - days.toInt * 86400000000000
    Command.parse "purge" ["--days=" ++ toString days.toInt] = .ok job.command ∧ (job.run now d).2.Sound ∧
    ((∃ e, Catalog.openDirectory job.name job.config.search d false = .error e) →
      job.run now d = (.failed ("failed to open index at " ++ job.indexPath), d)) ∧
    ∀ c, Catalog.openDirectory job.name job.config.search d false = .ok c →
      c.close.events = d.events ∧ (∀ text, d.text? = some text → c.close.text? = some text) ∧
      (106751991167 < days.toInt.natAbs → job.run now d = (.aborted, c.close)) ∧
      (days.toInt.natAbs ≤ 106751991167 → days.toInt < 0 →
        job.run now d = (.failed ("Invalid argument: purge duration must not be negative: -PT" ++
          toString (days.toInt.natAbs * 86400) ++ "S"), c.close)) ∧
      (days.toInt ≤ 106751991167 → 0 ≤ days.toInt →
        ∃ purged : Catalog, job.run now d = (.printed purged.stats.toJson, purged.close) ∧
          purged.stats.name = job.name ∧ purged.stats.documents = purged.close.events.length ∧
          purged.close.events.Perm (d.events.filter fun e =>
            ago < Instant.firstSecond * 1000000000 || ago / 1000000 < e.lastSeen.millis)) := by
  refine ⟨hjob ▸ parse_purge days, job.sound_run now hd, ?_, fun c hopen => ?_⟩
  · rintro ⟨e, hfailed⟩
    simp only [run, hjob, hfailed]
  · have hopened := hd.opened hopen
    exact ⟨hopened.current.events_close.trans hopened.visible_eq, hopened.text_eq,
      run_purge_of_long hjob hopen now, run_purge_of_neg hjob hopen now,
      run_purge_of_nonneg hjob hopen now hd⟩

/-- On the sixtieth day the operator removes what was last seen thirty days ago or earlier. Of two events,
the one that was seen on the fortieth day is left. -/
theorem run_purge_month :
    let fortieth : Instant := ⟨⟨3456000, 0, by decide, by decide, by decide⟩, by decide⟩
    let sixtieth : Instant := ⟨⟨5184000, 0, by decide, by decide, by decide⟩, by decide⟩
    let seen (n : Nat) (t : Instant) : Event := .raise (.ofNat n) t "host" "/Status" "down" .warning
    let job : Job := ⟨"event_summary", .default, .onIndex (.purge 30)⟩
    let d : Directory := .index (Catalog.indexOf [seen 1 .epoch, seen 2 fortieth])
    d.Sound ∧ ∃ purged : Catalog, job.run sixtieth d = (.printed purged.stats.toJson, purged.close) ∧
      purged.close.events = [seen 2 fortieth] := by
  intro fortieth sixtieth seen job d
  have hsound : d.Sound := Directory.sound_indexOf _
  obtain ⟨c, hopen⟩ := Catalog.opens_indexOf "event_summary" [seen 1 .epoch, seen 2 fortieth]
  have hjob : job.command = .onIndex (.purge 30) := rfl
  obtain ⟨-, -, -, hopened⟩ := run_purge hjob sixtieth hsound
  obtain ⟨-, -, -, -, hpurged⟩ := hopened c hopen
  obtain ⟨purged, hrun, -, -, hleft⟩ := hpurged (by decide) (by decide)
  -- the first event was last seen on day 0, the second after the thirtieth
  rw [Directory.events_indexOf, List.filter_cons_of_neg (by decide), List.filter_cons_of_pos (by decide),
    List.filter_nil] at hleft
  exact ⟨hsound, purged, hrun, List.perm_singleton.1 hleft⟩

/-- **The purge command may be aborted.** The largest number of days is taken from the command line. It is
longer than any span of time, so the command is aborted. The catalog takes an age of as many days, which is
before all times, and has nothing to do. -/
theorem run_purge_aborted :
    let event : Event := .raise (.ofNat 1) .epoch "host" "/Status" "down" .warning
    let job : Job := ⟨"event_summary", .default, .onIndex (.purge 9223372036854775807)⟩
    let d : Directory := .index (Catalog.indexOf [event])
    Command.parse "purge" ["--days", "9223372036854775807"] = .ok job.command ∧ d.Sound ∧
      (job.run .epoch d).1 = .aborted ∧
      ∃ c, Catalog.openDirectory job.name job.config.search d false = .ok c ∧
        c.purgeOlder .epoch ⟨9223372036854775807 * 86400000000000⟩ = (.ok (), c) := by
  intro event job d
  obtain ⟨c, hopen⟩ := Catalog.opens_indexOf "event_summary" [event]
  have hjob : job.command = .onIndex (.purge 9223372036854775807) := rfl
  refine ⟨by rfl, Directory.sound_indexOf [event], ?_, c, hopen, ?_⟩
  · rw [run_purge_of_long hjob hopen .epoch (by decide)]
  · rw [c.purgeOlder_of_nonneg .epoch (by decide), if_pos (by decide)]

end Job

end Cli

end EventCatalog
