/-!
# Usage texts

The fixed texts of the `mcasm` command.
-/

namespace ChannelAsm.Usage

/-- The name and version of the command. -/
def version : String := "mcasm 0.1.0\n"

/-- The form of the command's arguments. -/
def form : String := "USAGE:
    mcasm [FLAGS] [OPTIONS] <SOURCE>
"

/-- The description of the command and its arguments. -/
def help : String := version ++ "Builds an MCASM program and runs its events

" ++ form ++ "
FLAGS:
    -h, --help           Prints help information
    -i, --interactive    Prompt for event names to run
    -v                   Sets the level of logging
    -V, --version        Prints version information

OPTIONS:
    -e, --event <EVENT>...    Event to run after event_init, may be repeated
        --period <MS>         Milliseconds between ticks
    -t, --tick <EVENT>        Event to run every period until interrupted

ARGS:
    <SOURCE>    Source file, or an http(s) address to fetch it from
"

end ChannelAsm.Usage
