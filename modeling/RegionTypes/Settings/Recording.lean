import RegionTypes.Settings.Journal
import RegionTypes.Store.Program

/-!
# Recorded runs

Running a script while its log events go to the journal instead of the trace.

* `record` — opens the journal, runs the script in a new session and writes the events.
-/

namespace RegionTypes

def TraceEntry.event? : TraceEntry → Option Log.Event
  | log event => some event
  | _ => none

namespace Report

def events (r : Report) : List Log.Event := r.trace.filterMap TraceEntry.event?

def withoutEvents (r : Report) : Report :=
  { r with trace := r.trace.filter fun entry => entry.event?.isNone }

end Report

/-- A script's reports and what the journal holds after it. -/
structure Recording where
  reports : List Report
  journal : Log.Journal

/-- Runs a script in a new session with a journal.  `environment` is what the environment says about
the filter, `existing` what the log file held before. -/
def record (settings : Logging) (environment existing : Option String) (script : List Step) :
    Recording :=
  let filter := settings.filter environment
  let reports := (Session.initial {} filter).run script
  let events := Log.Journal.opening settings filter ++ reports.flatMap Report.events
  { reports := reports.map Report.withoutEvents
    journal := Log.Journal.write settings existing events }

end RegionTypes
