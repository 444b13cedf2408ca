/-!
# Refresh modes

When snapshots are collected, and the words for it on the command line and in configuration files.
-/
namespace PoolGauge

/-- When snapshots are collected: at every scrape, or in the background at a fixed period. -/
inductive RefreshMode where
  | onScrape | interval
deriving DecidableEq, Repr

namespace RefreshMode

def ofOption? : String → Option RefreshMode
  | "on-scrape" => some onScrape
  | "interval" => some interval
  | _ => none

def ofSetting? : String → Option RefreshMode
  | "on_scrape" => some onScrape
  | "interval" => some interval
  | _ => none

def name : RefreshMode → String
  | onScrape => "OnScrape"
  | interval => "Interval"

end RefreshMode

end PoolGauge
