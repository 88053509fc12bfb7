import ByteStore.Settings.Shape

/-!
# The settings of the objects engine

The shapes of the engine's settings, and the values that hold where a file says nothing.
-/

namespace ByteStore.Settings.Engine

/-- How the engine clears a directory. -/
def clearing : Shape := .record [("interval", .duration), ("min_age", .duration)]

/-- How the engine merges its tables. -/
def merging : Shape :=
  .record [("poll_interval", .duration), ("manifest_update_timeout", .duration),
    ("max_sst_size", .count 64), ("max_concurrent_compactions", .count 64)]

/-- How the engine keeps copies of objects in files. -/
def caching : Shape :=
  .record [("root_folder", .optional .text), ("max_cache_size_bytes", .optional (.count 64)),
    ("part_size_bytes", .count 64), ("cache_puts", .flag),
    ("preload_disk_cache_on_startup", .optional (.choice ["L0Sst", "AllSst"])),
    ("scan_interval", .duration)]

/-- The settings of the engine. It knows no codec. -/
def shape : Shape :=
  .record [("flush_interval", .duration), ("manifest_poll_interval", .duration),
    ("manifest_update_timeout", .duration), ("min_filter_keys", .count 32),
    ("filter_bits_per_key", .count 32), ("l0_sst_size_bytes", .count 64),
    ("l0_max_ssts", .count 64), ("max_unflushed_bytes", .count 64),
    ("compactor_options", .optional merging), ("compression_codec", .optional (.choice [])),
    ("object_store_cache_options", caching),
    ("garbage_collector_options", .optional (.record
      [("manifest_options", .optional clearing), ("wal_options", .optional clearing),
        ("compacted_options", .optional clearing)])),
    ("default_ttl", .optional (.count 64))]

/-- How a directory is cleared where a file says nothing. -/
def defaultClearing (interval age : String) : Value :=
  .table [("interval", .text interval), ("min_age", .text age)]

/-- The bytes of a mebibyte. -/
def mebibyte : Int := 1048576

/-- The settings where a file says nothing. -/
def defaults : Value :=
  .table [("flush_interval", .text "100ms"), ("manifest_poll_interval", .text "1s"),
    ("manifest_update_timeout", .text "300s"), ("min_filter_keys", .integer 1000),
    ("filter_bits_per_key", .integer 10), ("l0_sst_size_bytes", .integer (64 * mebibyte)),
    ("l0_max_ssts", .integer 8), ("max_unflushed_bytes", .integer (1024 * mebibyte)),
    ("compactor_options", .table [("poll_interval", .text "5s"),
      ("manifest_update_timeout", .text "300s"), ("max_sst_size", .integer (1024 * mebibyte)),
      ("max_concurrent_compactions", .integer 4)]),
    ("compression_codec", .null),
    ("object_store_cache_options", .table [("root_folder", .null),
      ("max_cache_size_bytes", .integer (16384 * mebibyte)),
      ("part_size_bytes", .integer (4 * mebibyte)), ("cache_puts", .flag false),
      ("preload_disk_cache_on_startup", .null), ("scan_interval", .text "3600s")]),
    ("garbage_collector_options", .table [("manifest_options", defaultClearing "300s" "86400s"),
      ("wal_options", defaultClearing "60s" "60s"),
      ("compacted_options", defaultClearing "300s" "86400s")]),
    ("default_ttl", .null)]

/-- Whether the engine can run with settings, laid over its own. -/
def accepts (settings : Value) : Bool := shape.accepts (defaults.overlay settings)

end ByteStore.Settings.Engine
