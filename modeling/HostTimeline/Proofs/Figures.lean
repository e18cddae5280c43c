import HostTimeline.Proofs.Timeline

/-!
The figures of each host, looked up by its name.
-/

namespace HostTimeline.Timeline

variable {α : Type} [Scalar α]

theorem hostLoad_ok {mostMemory mostSlots : α} {track : Track α} {load : HostLoad α}
    (done : hostLoad mostMemory mostSlots track = .ok load) :
    track.load .memory mostMemory = .ok load.memory ∧
      track.load .slots mostSlots = .ok load.slots := by
  unfold hostLoad at done
  obtain ⟨memory, memoryDone, done⟩ := bind_ok done
  obtain ⟨slots, slotsDone, done⟩ := bind_ok done
  cases done
  simp only at memoryDone slotsDone
  constructor
  · split at memoryDone
    · cases memoryDone
    next found =>
      cases memoryDone
      exact found
  · split at slotsDone
    · cases slotsDone
    next found =>
      cases slotsDone
      exact found

variable {window : Window α} {hosts : HostMap (List (Observation α))} {timeline : Timeline α}

theorem exists_track (built : Timeline.build window hosts = .ok timeline) {name : String}
    (member : name ∈ hosts.names) : ∃ observations, (name, observations) ∈ hosts.sorted ∧
      Track.build timeline.grid name observations ∈ timeline.tracks := by
  obtain ⟨entry, found, rfl⟩ := List.mem_map.mp member
  have sorted := hosts.perm_sorted.mem_iff.mpr found
  refine ⟨entry.2, sorted, ?_⟩
  rw [(build_eq built).2]
  exact List.mem_map_of_mem sorted

theorem lookup_occupancies (named : (timeline.tracks.map Track.name).Nodup) {track : Track α}
    (member : track ∈ timeline.tracks) :
    timeline.occupancies.lookup track.name = some track.occupancy :=
  lookup_map_of_mem named member Track.occupancy

theorem names_occupancies (timeline : Timeline α) :
    timeline.occupancies.map Prod.fst = timeline.tracks.map Track.name := by
  unfold occupancies
  rw [List.map_map]
  rfl

theorem names_loads {loads : List (String × HostLoad α)} (done : timeline.loads = .ok loads) :
    loads.map Prod.fst = timeline.tracks.map Track.name := by
  refine map_eq_of_mapM ?_ done
  intro item result measured
  obtain ⟨load, _, measured⟩ := bind_ok measured
  cases measured
  rfl

theorem lookup_loads (named : (timeline.tracks.map Track.name).Nodup)
    {loads : List (String × HostLoad α)} (done : timeline.loads = .ok loads) {track : Track α}
    (member : track ∈ timeline.tracks) : ∃ load, loads.lookup track.name = some load ∧
      track.load .memory (timeline.capacity .memory).max = .ok load.memory ∧
      track.load .slots (timeline.capacity .slots).max = .ok load.slots := by
  obtain ⟨entry, found, measured⟩ := mapM_ok done member
  obtain ⟨load, loaded, measured⟩ := bind_ok measured
  cases measured
  exact ⟨load, lookup_of_mem (names_loads done ▸ named) found, hostLoad_ok loaded⟩

end HostTimeline.Timeline
